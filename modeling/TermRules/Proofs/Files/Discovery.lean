import Mathlib.Data.List.Induction
import TermRules.Config
import TermRules.Program
import TermRules.Proofs.Files.Tree
import TermRules.Proofs.Success

/-!
Which configuration holds for a working directory. The search goes up from the directory and ends at
the nearest one with a configuration file, which is read as a path from the root. So only that
directory counts: working directories below it, with no nearer file, share one configuration.
-/

namespace TermRules

namespace Tree

variable {t : Tree} {d w : List String} {name : String}

/-- Something of the name of configuration files is in the directory. -/
def Holds (t : Tree) (directory : List String) : Prop :=
  (t.descend? (directory ++ [Config.fileName])).isSome

instance (t : Tree) (directory : List String) : Decidable (t.Holds directory) :=
  inferInstanceAs (Decidable (_ = true))

/-- Of `w` and the directories above it, `d` is the nearest that holds a configuration file. -/
structure HoldsNearest (t : Tree) (d w : List String) : Prop where
  isAbove : d <+: w
  holds : t.Holds d
  between : ∀ e, d <+: e → e <+: w → e ≠ d → ¬t.Holds e

private theorem holdsNearest_of_holds (h : t.Holds w) : t.HoldsNearest d w ↔ d = w := by
  constructor
  · intro hd
    by_contra hne
    exact hd.between w hd.isAbove List.prefix_rfl (fun heq => hne heq.symm) h
  · rintro rfl
    refine ⟨List.prefix_rfl, h, fun e habove hbelow hne _ => hne ?_⟩
    exact hbelow.eq_of_length_le habove.length_le

/-- A directory that holds no configuration file has that of the directory above it. -/
theorem holdsNearest_concat (h : ¬t.Holds (w ++ [name])) :
    t.HoldsNearest d (w ++ [name]) ↔ t.HoldsNearest d w := by
  constructor
  · rintro ⟨habove, hholds, hbetween⟩
    have hd : d <+: w := by
      rcases List.prefix_concat_iff.mp habove with rfl | hd
      · exact absurd hholds h
      · exact hd
    exact ⟨hd, hholds, fun e hde hew => hbetween e hde (hew.trans (List.prefix_append _ _))⟩
  · rintro ⟨habove, hholds, hbetween⟩
    refine ⟨habove.trans (List.prefix_append _ _), hholds, fun e hde hew hne => ?_⟩
    rcases List.prefix_concat_iff.mp hew with rfl | hew
    · exact h
    · exact hbetween e hde hew hne

end Tree

namespace Config

variable {t : Tree} {d w : List String} {name : String} {wd p : Path} {c : Config}

section Search

private theorem fileIn_reverse (d : List String) : fileIn d.reverse = ⟨"/", d ++ [fileName]⟩ := by
  rw [fileIn, List.reverse_cons, List.reverse_reverse]

private theorem not_mem_concat_fileName (h : ".." ∉ d) : ".." ∉ d ++ [fileName] := by
  simp only [List.mem_append, List.mem_singleton, not_or]
  exact ⟨h, by decide⟩

private theorem look_fileIn (t : Tree) (wd : Path) (d : List String) :
    (t.disk wd).look (fileIn d.reverse) = Tree.walk [t] (d ++ [fileName]) := by
  rw [fileIn_reverse]
  exact Tree.look_disk rfl t wd

private theorem isThere_fileIn (t : Tree) (wd : Path) (h : ".." ∉ d) :
    ((t.disk wd).look (fileIn d.reverse)).isThere = true ↔ t.Holds d := by
  rw [look_fileIn, Tree.Holds, ← Tree.isThere_walk (not_mem_concat_fileName h)]

private theorem findAbove_root (t : Tree) (wd : Path) :
    findAbove (t.disk wd) [] = if t.Holds [] then some (fileIn []) else none := by
  have hiff := isThere_fileIn t wd (d := []) List.not_mem_nil
  calc findAbove (t.disk wd) []
      = if ((t.disk wd).look (fileIn [])).isThere then some (fileIn []) else none := by
        rw [findAbove]
        rfl
    _ = _ := if_congr hiff rfl rfl

private theorem findAbove_concat (h : ".." ∉ w ++ [name]) :
    findAbove (t.disk wd) (w ++ [name]).reverse =
      if t.Holds (w ++ [name]) then some (fileIn (w ++ [name]).reverse)
      else findAbove (t.disk wd) w.reverse := by
  have hiff := isThere_fileIn t wd h
  rw [List.reverse_concat] at hiff ⊢
  calc findAbove (t.disk wd) (name :: w.reverse)
      = if ((t.disk wd).look (fileIn (name :: w.reverse))).isThere
        then some (fileIn (name :: w.reverse)) else findAbove (t.disk wd) w.reverse := rfl
    _ = _ := if_congr hiff rfl rfl

private theorem findAbove_eq_none_iff (h : ".." ∉ w) :
    findAbove (t.disk wd) w.reverse = none ↔ ∀ d, d <+: w → ¬t.Holds d := by
  -- From the root down, as each directory is asked before those above it.
  induction w using List.reverseRecOn with
  | nil =>
      rw [List.reverse_nil, findAbove_root]
      simp
  | append_singleton w name ih =>
      have hw : ".." ∉ w := fun hmem => h (List.mem_append_left _ hmem)
      rw [findAbove_concat h]
      by_cases hholds : t.Holds (w ++ [name])
      · rw [if_pos hholds]
        simp only [reduceCtorEq, false_iff]
        exact fun hnone => hnone _ List.prefix_rfl hholds
      · rw [if_neg hholds, ih hw]
        constructor
        · intro hnone d hd
          rcases List.prefix_concat_iff.mp hd with rfl | hd
          · exact hholds
          · exact hnone d hd
        · exact fun hnone d hd => hnone d (hd.trans (List.prefix_append _ _))

/-- The search finds the file in the nearest directory that holds one. -/
theorem findAbove_eq_some_iff (h : ".." ∉ w) :
    findAbove (t.disk wd) w.reverse = some p ↔
      ∃ d, t.HoldsNearest d w ∧ p = fileIn d.reverse := by
  induction w using List.reverseRecOn with
  | nil =>
      rw [List.reverse_nil, findAbove_root]
      by_cases hholds : t.Holds []
      · simp only [if_pos hholds, Tree.holdsNearest_of_holds hholds, exists_eq_left,
          List.reverse_nil]
        exact Option.some_inj.trans eq_comm
      · simp only [if_neg hholds, reduceCtorEq, false_iff]
        rintro ⟨d, hd, -⟩
        exact hholds (List.prefix_nil.mp hd.isAbove ▸ hd.holds)
  | append_singleton w name ih =>
      have hw : ".." ∉ w := fun hmem => h (List.mem_append_left _ hmem)
      rw [findAbove_concat h]
      by_cases hholds : t.Holds (w ++ [name])
      · simp only [if_pos hholds, Tree.holdsNearest_of_holds hholds, exists_eq_left]
        exact Option.some_inj.trans eq_comm
      · simp only [if_neg hholds, Tree.holdsNearest_concat hholds, ih hw]

private theorem find_eq_findAbove (t : Tree) (wd : Path) (start : Option Path) :
    find (t.disk wd) start =
      findAbove (t.disk wd) ((start.getD wd).resolve wd).parts.reverse :=
  rfl

end Search

section Loading

/-- A file of terms as it is found from elsewhere, if it was written down in the directory. -/
def placed (directory : List String) (file : String) : String :=
  if file = "" ∨ (Path.ofText file).isAbsolute then file
  else ((Path.mk "/" directory).join (Path.ofText file)).text

/-- The configuration file in the directory spells the configuration. -/
def Spells [Readable Config] (t : Tree) (directory : List String) (c : Config) : Prop :=
  ∃ bytes document, t.descend? (directory ++ [fileName]) = some (.file bytes) ∧
    Look.document bytes = .ok document ∧
    ofDocument (fileIn directory.reverse).text document = .ok c

private theorem locateTerms_fileIn (d : List String) (c : Config) :
    locateTerms (fileIn d.reverse) c = { c with termsFile := c.termsFile.map (placed d) } := by
  have hparent : (fileIn d.reverse).parent = ⟨"/", d⟩ := by
    rw [fileIn_reverse, Path.parent, List.dropLast_concat]
  rw [locateTerms, hparent]
  obtain ⟨termsFile, useStandard, maxDepth, adjust, format, level⟩ := c
  cases termsFile with
  | none => rfl
  | some file =>
      simp only [Option.map_some, placed, Bool.or_eq_true, String.isEmpty_iff]
      split <;> rfl

/-- What a file in the directory gives is what it spells, with the file of terms placed. -/
theorem ofLook_eq_ok_iff [Readable Config] {u : Tree} (h : t.descend? (d ++ [fileName]) = some u) :
    ofLook (fileIn d.reverse) u.look = .ok c ↔
      ∃ written, Spells t d written ∧
        c = { written with termsFile := written.termsFile.map (placed d) } := by
  rw [ofLook, Tree.isThere_look]
  cases u with
  | directory entries =>
      constructor
      · exact nofun
      · rintro ⟨written, ⟨bytes, document, hfile, -⟩, -⟩
        cases h.symm.trans hfile
  | file bytes =>
      constructor
      · intro hload
        cases hdocument : Look.document bytes with
        | error problem => simp [Tree.look, Look.bytes, hdocument] at hload
        | ok document =>
            simp only [Tree.look, Look.bytes, hdocument] at hload
            obtain ⟨written, hwritten, rfl⟩ := map_eq_ok_iff.mp hload
            exact ⟨written, ⟨bytes, document, h, hdocument, hwritten⟩, locateTerms_fileIn d written⟩
      · rintro ⟨written, ⟨bytes', document, hfile, hdocument, hwritten⟩, rfl⟩
        cases h.symm.trans hfile
        simp only [Tree.look, Look.bytes, hdocument]
        exact map_eq_ok_iff.mpr ⟨written, hwritten, locateTerms_fileIn d written⟩

private theorem load_of_holdsNearest [Readable Config]
    (h : t.HoldsNearest d (wd.resolve wd).parts) :
    ∃ u, t.descend? (d ++ [fileName]) = some u ∧
      load (t.disk wd) = ofLook (fileIn d.reverse) u.look := by
  obtain ⟨u, hu⟩ := Option.isSome_iff_exists.mp h.holds
  have hparts := Path.not_mem_resolve wd wd
  have hfind : find (t.disk wd) = some (fileIn d.reverse) := by
    rw [find_eq_findAbove, Option.getD_none]
    exact (findAbove_eq_some_iff hparts).mpr ⟨d, h, rfl⟩
  have hd : ".." ∉ d := fun hmem => hparts (h.isAbove.subset hmem)
  refine ⟨u, hu, ?_⟩
  calc load (t.disk wd) = ofLook (fileIn d.reverse) ((t.disk wd).look (fileIn d.reverse)) := by
        rw [load, hfind]
        rfl
    _ = _ := by rw [look_fileIn, Tree.walk_of_descend (not_mem_concat_fileName hd) hu]

private theorem isAbsolute_placed {file : String} (h : placed d file ≠ "") :
    (Path.ofText (placed d file)).isAbsolute = true := by
  rw [placed] at h ⊢
  split at h
  · rename_i hkept
    rw [if_pos hkept]
    exact hkept.resolve_left h
  · rename_i hrelative
    have hjoin : (Path.mk "/" d).join (Path.ofText file) = ⟨"/", d ++ (Path.ofText file).parts⟩ :=
      if_neg fun habsolute => hrelative (.inr habsolute)
    rw [if_neg hrelative, hjoin]
    exact Path.isAbsolute_ofText_text _

end Loading

/-- The search for a configuration ends with the nearest file above, or with nothing if there is
none up to the root. What is loaded depends on the directory of that file only: working
directories below it load the same configuration or fail alike, and a relative file of terms is
one of that directory. -/
theorem load_alike_below [Readable Config] (t : Tree) :
    (∀ (wd : Path) (start : Option Path),
      (find (t.disk wd) start = none ↔
        ∀ d, d <+: ((start.getD wd).resolve wd).parts → ¬t.Holds d) ∧
      ∀ p, find (t.disk wd) start = some p ↔
        ∃ d, t.HoldsNearest d ((start.getD wd).resolve wd).parts ∧ p = fileIn d.reverse) ∧
    ∀ (d : List String) (wd wd' : Path), t.HoldsNearest d (wd.resolve wd).parts →
      t.HoldsNearest d (wd'.resolve wd').parts →
      load (t.disk wd) = load (t.disk wd') ∧
      (∀ c, load (t.disk wd) = .ok c ↔ ∃ written, Spells t d written ∧
        c = { written with termsFile := written.termsFile.map (placed d) }) ∧
      ∀ c file, load (t.disk wd) = .ok c → c.termsFile = some file → file ≠ "" →
        (Path.ofText file).isAbsolute = true := by
  refine ⟨fun wd start => ⟨?_, fun p => ?_⟩, fun d wd wd' hd hd' => ?_⟩
  · rw [find_eq_findAbove]
    exact findAbove_eq_none_iff (Path.not_mem_resolve _ _)
  · rw [find_eq_findAbove]
    exact findAbove_eq_some_iff (Path.not_mem_resolve _ _)
  · obtain ⟨u, hu, hload⟩ := load_of_holdsNearest hd
    obtain ⟨u', hu', hload'⟩ := load_of_holdsNearest hd'
    obtain rfl := Option.some.inj (hu.symm.trans hu')
    rw [hload, hload']
    refine ⟨rfl, fun c => ofLook_eq_ok_iff hu, fun c file hc hfile hne => ?_⟩
    obtain ⟨written, -, rfl⟩ := (ofLook_eq_ok_iff hu).mp hc
    obtain ⟨file, -, rfl⟩ := Option.map_eq_some_iff.mp hfile
    exact isAbsolute_placed hne

/-- A configuration that names a file of terms beside it. -/
def termsBeside : String :=
  "\x7b\"ontology\": \x7b\"termsFile\": \"terms.json\"\x7d\x7d"

/-- A project with the configuration at its top and sources two levels below. -/
def projectTree : Tree :=
  .directory [("project", .directory [(fileName, .file termsBeside.toUTF8.toList),
    ("source", .directory [("deep", .directory [])])])]

section Program

open Program

theorem load_alike_below_project :
    load (projectTree.disk ⟨"/", ["project", "source", "deep"]⟩) =
        load (projectTree.disk ⟨"/", ["project"]⟩) ∧
      load (projectTree.disk ⟨"/", ["project", "source", "deep"]⟩) =
        .ok { termsFile := some "/project/terms.json" } := by
  have hproject : projectTree.HoldsNearest ["project"] ["project"] :=
    (Tree.holdsNearest_of_holds (by decide +kernel)).mpr rfl
  have hsource : projectTree.HoldsNearest ["project"] (["project"] ++ ["source"]) :=
    (Tree.holdsNearest_concat (by decide +kernel)).mpr hproject
  have hdeep : projectTree.HoldsNearest ["project"] (["project", "source"] ++ ["deep"]) :=
    (Tree.holdsNearest_concat (by decide +kernel)).mpr hsource
  have hspells : Spells projectTree ["project"] { termsFile := some "terms.json" } :=
    ⟨termsBeside.toUTF8.toList, termsBeside, rfl, toOption_eq_some_iff.mp (by decide +kernel),
      toOption_eq_some_iff.mp (by decide +kernel)⟩
  obtain ⟨hload, hiff, -⟩ := (load_alike_below projectTree).2 ["project"]
    ⟨"/", ["project", "source", "deep"]⟩ ⟨"/", ["project"]⟩ hdeep hproject
  refine ⟨hload, (hiff _).mpr ⟨_, hspells, ?_⟩⟩
  decide +kernel

end Program

end Config

end TermRules
