import Ripple.Proofs.JsonScalars
import Ripple.Proofs.KeyedUnion
import Ripple.Proofs.Writing
import Ripple.Report.Files

/-! # Writing all reports or none

The forms of all reports are looked up before anything is written. So with one unknown form the
files are as before, down to the directory for the reports. Otherwise each form that is asked for
has its report in the directory, once, and every other file is as before. Only a count with too many
digits ends the writing early, and the reports in front of it stay.
-/
namespace Ripple

namespace Report

def pathIn (directory : Path) (format : ReportFormat) : Path :=
  directory.join (Path.ofString (fileName format))

def placeIn (t : FileTree) (directory : Path) (format : ReportFormat) : List String :=
  (t.resolve (pathIn directory format)).names

theorem placeIn_congr {t t' : FileTree} (h : t'.current = t.current) (directory : Path)
    (format : ReportFormat) : placeIn t' directory format = placeIn t directory format := by
  rw [placeIn, placeIn, FileTree.resolve_congr h]

theorem pathIn_eq (directory : Path) (format : ReportFormat) :
    pathIn directory format = { directory with names := directory.names ++ [fileName format] } := by
  cases format <;> rfl

theorem fileName_injective : Function.Injective fileName := by
  intro f g h
  cases f <;> cases g <;> first | rfl | exact absurd h (by decide)

theorem format?_text (format : ReportFormat) : format? format.text = some format := by
  cases format <;> rfl

theorem format?_eq_none_iff (name : String) :
    format? name = none ↔ name ∉ ReportFormat.all.map ReportFormat.text := by
  rw [format?, List.find?_eq_none, List.mem_map, not_exists]
  refine forall_congr' fun format => ?_
  rw [decide_eq_true_eq, not_and, eq_comm]

theorem text_injective : Function.Injective ReportFormat.text := by
  intro f g h
  exact Option.some.inj ((format?_text f).symm.trans (h ▸ format?_text g))

theorem distinct_map_text (formats : List ReportFormat) :
    distinct (formats.map ReportFormat.text) = (distinct formats).map ReportFormat.text := by
  rw [distinct, distinctBy_map, distinct]
  exact congrArg _ (distinctBy_congr _ fun _ _ _ _ => text_injective.eq_iff)

def unknownNames (names : List String) : List String :=
  (names.filter (· ∉ ReportFormat.all.map ReportFormat.text)).eraseDups

theorem filter_distinct_names (names : List String) :
    (distinct names).filter (fun name => (format? name).isNone) = unknownNames names := by
  have hfilter : (fun name => (format? name).isNone) =
      fun name => decide (name ∉ ReportFormat.all.map ReportFormat.text) := by
    funext name
    rw [Bool.eq_iff_iff, Option.isNone_iff_eq_none, format?_eq_none_iff, decide_eq_true_eq]
  rw [unknownNames, ← distinct_eq_eraseDups, distinct, distinct, hfilter]
  exact (distinctBy_filter id (fun a b h => by rw [show a = b from h]) names).symm

/-- Without unknown names the names are those of forms. -/
theorem unknownNames_eq_nil_iff (names : List String) : unknownNames names = [] ↔
    ∃ formats : List ReportFormat, names = formats.map ReportFormat.text := by
  constructor
  · intro hnone
    have hknown : ∀ name ∈ names, name ∈ ReportFormat.all.map ReportFormat.text := by
      intro name hname
      by_contra hunknown
      have hmem : name ∈ unknownNames names :=
        List.mem_eraseDups.mpr (List.mem_filter.mpr ⟨hname, decide_eq_true hunknown⟩)
      exact List.not_mem_nil (hnone ▸ hmem)
    clear hnone
    induction names with
    | nil => exact ⟨[], rfl⟩
    | cons name rest ih =>
      obtain ⟨hname, hrest⟩ := List.forall_mem_cons.mp hknown
      obtain ⟨format, -, rfl⟩ := List.mem_map.mp hname
      obtain ⟨formats, rfl⟩ := ih hrest
      exact ⟨format :: formats, rfl⟩
  · rintro ⟨formats, rfl⟩
    rw [unknownNames, List.filter_eq_nil_iff.mpr, List.eraseDups_nil]
    intro name hname
    obtain ⟨format, -, rfl⟩ := List.mem_map.mp hname
    rw [decide_eq_true_eq, ← format?_eq_none_iff, format?_text]
    exact Option.some_ne_none format

section

variable {t files : FileTree} {directory : Path} {formats : List ReportFormat}

/-- The files of the reports can be written into the directory, or into one made for them. -/
structure Writable (files : FileTree) (directory : Path) (formats : List ReportFormat) : Prop where
  passable : files.Passable directory
  free : ∀ format ∈ formats,
    placeIn files directory format ∉ files.way directory ∧
      files.node? (placeIn files directory format) ≠ some .directory

theorem parent_pathIn (directory : Path) (format : ReportFormat) :
    (pathIn directory format).parent = directory := by
  rw [pathIn_eq, Path.parent, List.dropLast_concat]

theorem name_pathIn (directory : Path) (format : ReportFormat) :
    (pathIn directory format).name = fileName format := by
  rw [pathIn_eq, Path.name, List.getLastD_concat]

theorem entry_pathIn (hdirectory : directory.Usable)
    (h : ∀ place ∈ t.way directory, t.node? place = some .directory) (format : ReportFormat) :
    t.Entry (pathIn directory format) := by
  have hplain : '\x00' ∉ (fileName format).toList := by cases format <;> decide
  have hshort : (fileName format).utf8ByteSize ≤ FileTree.nameLimit := by cases format <;> decide
  refine ⟨?_, by rwa [parent_pathIn], ?_, ?_⟩
  · rw [pathIn_eq]
    exact ⟨hdirectory.root,
      List.forall_mem_append.mpr ⟨hdirectory.plain, List.forall_mem_singleton.mpr hplain⟩,
      List.forall_mem_append.mpr ⟨hdirectory.short, List.forall_mem_singleton.mpr hshort⟩⟩
  · rw [pathIn_eq]
    simp
  · rw [name_pathIn]
    cases format <;> decide

theorem placeIn_ne_nil {format : ReportFormat} (h : t.Entry (pathIn directory format)) :
    placeIn t directory format ≠ [] := by
  have hroot := h.resolve_ne_nil
  rwa [← placeIn] at hroot

/-- Different reports have different places. -/
theorem placeIn_injective (hentry : ∀ format, t.Entry (pathIn directory format)) :
    Function.Injective (placeIn t directory) := by
  intro f g h
  rw [placeIn, placeIn, (hentry f).resolve, (hentry g).resolve, parent_pathIn, parent_pathIn,
    name_pathIn, name_pathIn] at h
  exact fileName_injective (List.singleton_inj.mp (List.append_cancel_left h))

/-- The place of a report, and the file that is put there. -/
def entryOf (r : Result) (t : FileTree) (directory : Path) (format : ReportFormat) :
    List String × FileNode :=
  (placeIn t directory format, .file (Text.Utf8.encode (render r format)))

theorem fst_entryOf (r : Result) (format : ReportFormat) :
    (entryOf r t directory format).1 = placeIn t directory format := by
  rw [entryOf]

theorem snd_entryOf (r : Result) (format : ReportFormat) :
    (entryOf r t directory format).2 = .file (Text.Utf8.encode (render r format)) := by
  rw [entryOf]

theorem entryOf_congr {t' : FileTree} (h : t'.current = t.current) (r : Result) :
    entryOf r t' directory = entryOf r t directory := by
  funext format
  rw [entryOf, entryOf, placeIn_congr h]

def withReports (r : Result) (t : FileTree) (directory : Path) (formats : List ReportFormat) :
    FileTree :=
  t.setAll (formats.map (entryOf r t directory))

theorem current_withReports (r : Result) :
    (withReports r t directory formats).current = t.current :=
  FileTree.current_setAll _

/-- Each report stands in its place. -/
theorem node?_withReports (r : Result) (hentry : ∀ format, t.Entry (pathIn directory format))
    {format : ReportFormat} (hformat : format ∈ formats) :
    (withReports r t directory formats).node? (placeIn t directory format) =
      some (.file (Text.Utf8.encode (render r format))) := by
  have hmem : entryOf r t directory format ∈ formats.map (entryOf r t directory) :=
    List.mem_map_of_mem hformat
  have hroot : (entryOf r t directory format).1 ≠ [] := by
    rw [fst_entryOf]
    exact placeIn_ne_nil (hentry format)
  have hput := FileTree.node?_setAll_of_mem (t := t) hmem hroot fun other hother heq => by
    obtain ⟨f, -, rfl⟩ := List.mem_map.mp hother
    rw [fst_entryOf, fst_entryOf] at heq
    rw [placeIn_injective hentry heq]
  rwa [fst_entryOf, snd_entryOf] at hput

/-- Nothing else is put anywhere. -/
theorem node?_withReports_of_ne (r : Result) {place : List String}
    (h : ∀ format ∈ formats, place ≠ placeIn t directory format) :
    (withReports r t directory formats).node? place = t.node? place := by
  refine FileTree.node?_setAll_of_notMem fun hmem => ?_
  obtain ⟨entry, hentry, rfl⟩ := List.mem_map.mp hmem
  obtain ⟨format, hformat, rfl⟩ := List.mem_map.mp hentry
  exact h format hformat (fst_entryOf r format)

/-- The forms up to the first one that shows a count with too many digits. -/
def legibleFront (r : Result) (formats : List ReportFormat) : List ReportFormat :=
  formats.takeWhile fun format => Legible r format

theorem mem_of_mem_legibleFront {r : Result} {format : ReportFormat}
    (h : format ∈ legibleFront r formats) : format ∈ formats :=
  (List.takeWhile_prefix _).subset h

theorem writeEach_nil (r : Result) (directory : Path) (w : Written) :
    writeEach r directory w [] = w := rfl

-- closed, so that one step can be read off without working out where a text is written
attribute [local irreducible] FileTree.writeText in
theorem writeEach_cons (r : Result) (directory : Path) (w : Written) (format : ReportFormat)
    (rest : List ReportFormat) :
    writeEach r directory w (format :: rest) =
      if Legible r format then
        match w.files.writeText (pathIn directory format) (render r format) with
        | .ok files =>
          writeEach r directory { w with files, paths := w.paths ++ [pathIn directory format] } rest
        | .error f => { w with fault := some (.file f) }
      else { w with fault := some .longCount } := rfl

/-- Where no report finds a directory in its place, reports are written one after another, up to
the first one that cannot be put into words. -/
theorem writeEach_eq (r : Result) (ht : t.Settled)
    (hentry : ∀ format ∈ formats, t.Entry (pathIn directory format))
    (hfree : ∀ format ∈ formats, t.node? (placeIn t directory format) ≠ some .directory)
    (done : List Path) :
    writeEach r directory ⟨t, done, none⟩ formats =
      ⟨withReports r t directory (legibleFront r formats),
        done ++ (legibleFront r formats).map (pathIn directory),
        if legibleFront r formats = formats then none else some .longCount⟩ := by
  induction formats generalizing t done with
  | nil =>
    rw [writeEach_nil, legibleFront, List.takeWhile_nil, List.map_nil, List.append_nil]
    rfl
  | cons format rest ih =>
    obtain ⟨hfirst, hothers⟩ := List.forall_mem_cons.mp hentry
    obtain ⟨hfirstFree, hothersFree⟩ := List.forall_mem_cons.mp hfree
    rw [writeEach_cons]
    by_cases hlegible : Legible r format
    · have hfront : legibleFront r (format :: rest) = format :: legibleFront r rest :=
        List.takeWhile_cons_of_pos (decide_eq_true hlegible)
      have hwrite : t.writeText (pathIn directory format) (render r format) =
          .ok (t.set (placeIn t directory format)
            (.file (Text.Utf8.encode (render r format)))) := by
        rw [placeIn] at hfirstFree ⊢
        exact hfirst.writeText ht hfirstFree (render r format)
      have hcurrent : (t.set (placeIn t directory format)
        (.file (Text.Utf8.encode (render r format)))).current = t.current := FileTree.current_set
      rw [if_pos hlegible, hfront]
      simp only [hwrite, List.cons.injEq, true_and]
      rw [ih, List.append_assoc, List.singleton_append]
      · rw [withReports, withReports, entryOf_congr hcurrent, List.map_cons, List.map_cons,
          FileTree.setAll, FileTree.setAll, List.foldl_cons, fst_entryOf, snd_entryOf]
      · rwa [FileTree.Settled, hcurrent]
      · exact fun other hother => (hothers other hother).set fun hdirectory =>
          absurd hdirectory hfirstFree
      · intro other hother
        rw [placeIn_congr hcurrent]
        exact FileTree.node?_set_file_ne (hothersFree other hother)
    · have hfront : legibleFront r (format :: rest) = [] :=
        List.takeWhile_cons_of_neg (by simpa using hlegible)
      rw [if_neg hlegible, hfront, List.map_nil, List.append_nil,
        if_neg (List.cons_ne_nil format rest).symm]
      rfl

/-- Nothing is written for names of which one is unknown. -/
theorem write_of_unknown (r : Result) (files : FileTree) (directory : Path) {names : List String}
    (h : unknownNames names ≠ []) :
    write r files directory names = ⟨files, [], some (.unknownFormats (unknownNames names))⟩ := by
  rw [write]
  simp only [filter_distinct_names]
  rw [if_neg (by simpa using h)]

theorem write_of_formats (r : Result) {made : FileTree}
    (hmade : files.makePath directory.names.length directory = .ok made) :
    write r files directory (formats.map ReportFormat.text) =
      writeEach r directory ⟨made, [], none⟩ (distinct formats) := by
  have hknown : unknownNames (formats.map ReportFormat.text) = [] :=
    (unknownNames_eq_nil_iff _).mpr ⟨formats, rfl⟩
  have hforms :
      (distinct (formats.map ReportFormat.text)).filterMap format? = distinct formats := by
    rw [distinct_map_text, List.filterMap_map]
    exact (List.filterMap_congr fun format _ => format?_text format).trans List.filterMap_some
  rw [write]
  simp only [filter_distinct_names, hknown, hmade, hforms]
  rfl

/-- A count of changed files in each of two repositories, and nothing else. -/
def countsOf (first second : Int) : Result where
  about := ⟨⟨⟨2024, 1, 2⟩, 3, 4, 5, 0, some 0⟩, "main", "HEAD", toolName, toolVersion, none⟩
  summary := Summary.of [⟨"api", first, [], []⟩, ⟨"web", second, [], []⟩]
  repos := [⟨"api", first, [], []⟩, ⟨"web", second, [], []⟩]
  crossImpacts := []

def usedFiles : FileTree where
  nodes := [(["work"], .directory), (["work", "out"], .directory),
    (["work", "out", "impact.json"], .file [1]), (["work", "notes"], .file [2])]
  current := ["work"]

theorem wellFormed_usedFiles : usedFiles.WellFormed where
  settled := List.forall_mem_singleton.mpr ⟨⟨by decide, by decide, by decide⟩, by decide⟩
  current := by decide
  above := by decide

theorem not_legible_countsOf {first second : Int} (h : first + second = 10 ^ 4300) :
    ¬ Legible (countsOf first second) .markdown := by
  intro hlegible
  have htotal : (countsOf first second).summary.totalChangedFiles = first + second := by
    change first + (second + 0) = first + second
    rw [Int.add_zero]
  have hshort : Json.Convertible (countsOf first second).summary.totalChangedFiles :=
    hlegible _ List.mem_cons_self
  rw [htotal, h] at hshort
  exact Json.not_convertible_pow (Nat.le_refl 4300) hshort

end

end Report

end Ripple
