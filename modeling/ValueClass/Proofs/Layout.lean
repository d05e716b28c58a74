import Mathlib.Data.List.Basic
import ValueClass.Project.Discovery
import ValueClass.Proofs.Bytes
import ValueClass.Proofs.Patterns
import ValueClass.Proofs.Volume

/-!
# Where sources are written

The path of a source goes on from the output root by one name for each segment of the target, the
last one with an ending. Different targets have different names, so their sources are different
files on every volume.

* `parts_foldl_push`: going on from a path by names adds these names.
* `resolve_foldl_push`: such a path leads from the first one down these names.
* `eq_of_resolve_pathOfTarget`: **two targets whose paths lead to one place are the same.**
* `slash_not_mem_of_declarations`: the target of a declaration file has no slash.
-/

namespace ValueClass

open Text

variable {v : Volume} {p : Path} {name : Name} {names : List Name}

theorem slash_mem_utf8_iff {text : String} : slash ∈ utf8 text ↔ '/' ∈ text.toList :=
  mem_utf8_iff (c := '/') (by decide)

theorem dot_mem_utf8_iff {text : String} : dot ∈ utf8 text ↔ '.' ∈ text.toList :=
  mem_utf8_iff (c := '.') (by decide)

/-! ## Going on from a path -/

/-- The parts that stand in front of what a path goes on with. -/
def Path.base (p : Path) : List Name :=
  if p.bytes = [] ∨ p.bytes.getLast? = some slash then p.parts.dropLast else p.parts

theorem parts_ne_nil (p : Path) : p.parts ≠ [] := by
  obtain ⟨first, rest, hparts⟩ := exists_splitOn_eq slash p.bytes
  rw [Path.parts, hparts]
  exact List.cons_ne_nil _ _

theorem push_of_not_mem (h : slash ∉ name) :
    p.push name = if p.bytes = [] ∨ p.bytes.getLast? = some slash then ⟨p.bytes ++ name⟩
      else ⟨p.bytes ++ slash :: name⟩ := by
  have hhead : name.head? ≠ some slash := fun hhead => h (List.mem_of_mem_head? hhead)
  rw [Path.push, if_neg hhead]

theorem parts_push (h : slash ∉ name) : (p.push name).parts = p.base ++ [name] := by
  rw [push_of_not_mem h, Path.base]
  split
  · rename_i hend
    -- nothing is put between: what follows takes the place of an empty last part
    rcases hend with hempty | hlast
    · simp only [Path.parts, hempty, List.nil_append, List.splitOn_eq_singleton h]
      rfl
    · obtain ⟨before, hbefore⟩ := List.getLast?_eq_some_iff.1 hlast
      simp only [Path.parts, hbefore, List.splitOn_append_cons_self, List.append_assoc,
        List.singleton_append, List.splitOn_eq_singleton h]
      rw [show List.splitOn slash ([] : List UInt8) = [[]] from rfl, List.dropLast_concat]
  · simp only [Path.parts, List.splitOn_append_cons_self, List.splitOn_eq_singleton h]

theorem exists_bytes_push (h : slash ∉ name) (p : Path) :
    ∃ before, (p.push name).bytes = before ++ name := by
  rw [push_of_not_mem h]
  split
  · exact ⟨p.bytes, rfl⟩
  · exact ⟨p.bytes ++ [slash], by simp⟩

theorem base_push (h : IsName name) : (p.push name).base = p.base ++ [name] := by
  obtain ⟨before, hbytes⟩ := exists_bytes_push h.slash_not_mem p
  have hempty : (p.push name).bytes ≠ [] := by
    rw [hbytes]
    simp [h.ne_nil]
  have hlast : (p.push name).bytes.getLast? ≠ some slash := by
    obtain ⟨front, last, hname⟩ := (List.eq_nil_or_concat' name).resolve_left h.ne_nil
    rw [hbytes, hname, ← List.append_assoc, List.getLast?_concat]
    intro hlast
    exact h.slash_not_mem (by simp [hname, Option.some.inj hlast])
  rw [Path.base, if_neg (not_or.2 ⟨hempty, hlast⟩), parts_push h.slash_not_mem]

theorem isAbsolute_push (h : slash ∉ name) : (p.push name).isAbsolute = p.isAbsolute := by
  have hhead : name.head? ≠ some slash := fun hhead => h (List.mem_of_mem_head? hhead)
  rw [push_of_not_mem h]
  cases hbytes : p.bytes with
  | nil => simp [Path.isAbsolute, hbytes, hhead]
  | cons b rest => split <;> simp [Path.isAbsolute, hbytes]

section Names

variable (hnames : ∀ name ∈ names, IsName name)

include hnames

theorem base_foldl_push (p : Path) : (names.foldl Path.push p).base = p.base ++ names := by
  induction names generalizing p with
  | nil => rw [List.foldl_nil, List.append_nil]
  | cons name rest ih =>
    obtain ⟨hname, hrest⟩ := List.forall_mem_cons.1 hnames
    rw [List.foldl_cons, ih hrest, base_push hname, List.append_assoc, List.singleton_append]

theorem isAbsolute_foldl_push (p : Path) :
    (names.foldl Path.push p).isAbsolute = p.isAbsolute := by
  induction names generalizing p with
  | nil => rfl
  | cons name rest ih =>
    obtain ⟨hname, hrest⟩ := List.forall_mem_cons.1 hnames
    rw [List.foldl_cons, ih hrest, isAbsolute_push hname.slash_not_mem]

/-- Going on from a path by names adds these names. -/
theorem parts_foldl_push (hne : names ≠ []) (p : Path) :
    (names.foldl Path.push p).parts = p.base ++ names := by
  obtain ⟨front, last, rfl⟩ := (List.eq_nil_or_concat' names).resolve_left hne
  obtain ⟨hfront, hlast⟩ := List.forall_mem_append.1 hnames
  have hslash := (hlast last (List.mem_singleton_self last)).slash_not_mem
  rw [List.foldl_append, List.foldl_cons, List.foldl_nil, parts_push hslash,
    base_foldl_push hfront, List.append_assoc]

theorem follow_names {location found : Location} (h : v.follow location names = .ok found) :
    found = location ++ names := by
  induction names generalizing location with
  | nil =>
    cases h
    rw [List.append_nil]
  | cons name rest ih =>
    obtain ⟨hname, hrest⟩ := List.forall_mem_cons.1 hnames
    rw [Volume.follow] at h
    split at h
    · cases h
    rw [if_neg (not_or.2 ⟨hname.ne_nil, hname.ne_dot⟩), if_neg hname.ne_dots] at h
    split at h
    · cases h
    · rw [ih hrest h, List.append_assoc, List.singleton_append]

omit hnames in
theorem directory_of_follow (hne : names ≠ []) {location found : Location}
    (h : v.follow location names = .ok found) : v.lookup location = some .directory := by
  obtain ⟨name, rest, rfl⟩ := List.exists_cons_of_ne_nil hne
  rw [Volume.follow] at h
  split at h
  · cases h
  · rename_i hdirectory
    exact not_not.1 hdirectory

/-- **A path that goes on by names leads down these names.** Where they start depends on the path
they come after, and not on them. -/
theorem resolve_foldl_push (hne : names ≠ []) {found : Location}
    (h : v.resolve (names.foldl Path.push p) = .ok found) :
    ∃ start, v.follow (v.startOf p) p.base = .ok start ∧ v.lookup start = some .directory ∧
      found = start ++ names := by
  have hfollow := (resolve_eq_ok_iff.1 h).2
  have hstartOf : v.startOf (names.foldl Path.push p) = v.startOf p := by
    rw [Volume.startOf, Volume.startOf, isAbsolute_foldl_push hnames]
  rw [hstartOf, parts_foldl_push hnames hne] at hfollow
  obtain ⟨start, hstart, hnext⟩ := follow_append_eq_ok hfollow
  exact ⟨start, hstart, directory_of_follow hne hnext, follow_names hnames hnext⟩

end Names

/-! ## Targets -/

/-- The names of the directories and of the file for the segments of a target. -/
def sourceNames : List (List Char) → List Name
  | [] => []
  | [last] => [utf8 (String.ofList last ++ ".java")]
  | segment :: next :: rest => utf8 (String.ofList segment) :: sourceNames (next :: rest)

theorem pushSegments_eq_foldl (p : Path) (segments : List (List Char)) :
    pushSegments p segments = (sourceNames segments).foldl Path.push p := by
  fun_induction pushSegments p segments with
  | case1 => rfl
  | case2 p last => rfl
  | case3 p segment next rest ih => rw [ih, sourceNames, List.foldl_cons]

theorem sourceNames_ne_nil {segments : List (List Char)} (h : segments ≠ []) :
    sourceNames segments ≠ [] := by
  fun_cases sourceNames segments with
  | case1 => exact absurd rfl h
  | case2 last => exact List.cons_ne_nil _ _
  | case3 segment next rest => exact List.cons_ne_nil _ _

theorem sourceNames_inj {as bs : List (List Char)} (h : sourceNames as = sourceNames bs) :
    as = bs := by
  fun_induction sourceNames as generalizing bs with
  | case1 =>
    by_contra hne
    exact sourceNames_ne_nil (Ne.symm hne) h.symm
  | case2 last =>
    match bs with
    | [] => cases h
    | [other] =>
      have htext := utf8_inj.1 (List.cons.inj h).1
      rw [String.ext_iff, String.toList_append, String.toList_append] at htext
      simpa using htext
    | segment :: next :: rest =>
      exact absurd (List.cons.inj h).2.symm (sourceNames_ne_nil (List.cons_ne_nil _ _))
  | case3 segment next rest ih =>
    match bs with
    | [] => cases h
    | [other] => exact absurd (List.cons.inj h).2 (sourceNames_ne_nil (List.cons_ne_nil _ _))
    | other :: following :: more =>
      obtain ⟨hfirst, hrest⟩ := List.cons.inj h
      rw [ih hrest, String.ofList_injective (utf8_inj.1 hfirst)]

theorem isName_of_segment {segment : List Char} (hne : segment ≠ []) (hslash : '/' ∉ segment)
    (hdot : '.' ∉ segment) : IsName (utf8 (String.ofList segment)) := by
  have hbytes : dot ∉ utf8 (String.ofList segment) := by
    rwa [dot_mem_utf8_iff, String.toList_ofList]
  refine ⟨?_, ?_, ?_, ?_⟩
  · intro h
    have hempty := utf8_inj.1 (h.trans (show [] = utf8 "" from rfl))
    rw [String.ext_iff, String.toList_ofList] at hempty
    exact hne hempty
  · intro h
    exact hbytes (by simp [h])
  · intro h
    exact hbytes (by simp [h])
  · rwa [slash_mem_utf8_iff, String.toList_ofList]

theorem isName_of_source {last : List Char} (hslash : '/' ∉ last) :
    IsName (utf8 (String.ofList last ++ ".java")) := by
  -- with its ending, the name is longer than any that leads elsewhere
  have hlength : 5 ≤ (utf8 (String.ofList last ++ ".java")).length := by
    rw [utf8_append, List.length_append]
    exact Nat.le_add_left 5 _
  refine ⟨?_, ?_, ?_, ?_⟩
  · intro h
    simp [h] at hlength
  · intro h
    simp [h] at hlength
  · intro h
    simp [h] at hlength
  · rw [slash_mem_utf8_iff, String.toList_append, String.toList_ofList, List.mem_append]
    rintro (hmem | hmem)
    · exact hslash hmem
    · exact absurd hmem (by decide)

/-- **A target whose segments can be names**: none is empty or has a slash. -/
def Placeable (target : String) : Prop :=
  ∀ segment ∈ List.splitOn '.' target.toList, segment ≠ [] ∧ '/' ∉ segment

theorem isName_of_mem_sourceNames {segments : List (List Char)}
    (h : ∀ segment ∈ segments, (segment ≠ [] ∧ '/' ∉ segment) ∧ '.' ∉ segment) :
    ∀ name ∈ sourceNames segments, IsName name := by
  fun_induction sourceNames segments with
  | case1 =>
    intro name hname
    cases hname
  | case2 last =>
    intro name hname
    rw [List.mem_singleton.1 hname]
    exact isName_of_source (h last (List.mem_singleton_self last)).1.2
  | case3 segment next rest ih =>
    obtain ⟨⟨⟨hne, hslash⟩, hdot⟩, hrest⟩ := List.forall_mem_cons.1 h
    exact List.forall_mem_cons.2 ⟨isName_of_segment hne hslash hdot, ih hrest⟩

section Targets

variable {output : Path} {a b : String} (ha : Placeable a) (hb : Placeable b)

/-- The names that lead from the output root to the source of a class. -/
def namesOfTarget (target : String) : List Name :=
  sourceNames (List.splitOn '.' target.toList)

theorem pathOfTarget_eq_foldl (output : Path) (target : String) :
    pathOfTarget output target = (namesOfTarget target).foldl Path.push output :=
  pushSegments_eq_foldl output (List.splitOn '.' target.toList)

theorem namesOfTarget_ne_nil (target : String) : namesOfTarget target ≠ [] := by
  obtain ⟨first, rest, hsegments⟩ := exists_splitOn_eq '.' target.toList
  rw [namesOfTarget, hsegments]
  exact sourceNames_ne_nil (List.cons_ne_nil _ _)

theorem namesOfTarget_inj (h : namesOfTarget a = namesOfTarget b) : a = b := by
  have hsegments : List.splitOn '.' a.toList = List.splitOn '.' b.toList := sourceNames_inj h
  rw [← String.toList_inj]
  calc a.toList
    _ = List.intercalate ['.'] (List.splitOn '.' a.toList) := (List.intercalate_splitOn _).symm
    _ = List.intercalate ['.'] (List.splitOn '.' b.toList) := by rw [hsegments]
    _ = b.toList := List.intercalate_splitOn _

include ha

theorem Placeable.isName : ∀ name ∈ namesOfTarget a, IsName name :=
  isName_of_mem_sourceNames fun segment hsegment =>
    ⟨ha segment hsegment, not_mem_of_mem_splitOn hsegment⟩

include hb

/-- Different targets have different paths. -/
theorem pathOfTarget_inj (h : pathOfTarget output a = pathOfTarget output b) : a = b := by
  rw [pathOfTarget_eq_foldl, pathOfTarget_eq_foldl] at h
  have hparts := congrArg Path.parts h
  rw [parts_foldl_push ha.isName (namesOfTarget_ne_nil a),
    parts_foldl_push hb.isName (namesOfTarget_ne_nil b)] at hparts
  exact namesOfTarget_inj (List.append_cancel_left hparts)

/-- **Two targets whose paths lead to one place are the same.** -/
theorem eq_of_resolve_pathOfTarget {location : Location}
    (h : v.resolve (pathOfTarget output a) = .ok location)
    (h' : v.resolve (pathOfTarget output b) = .ok location) : a = b := by
  rw [pathOfTarget_eq_foldl] at h h'
  obtain ⟨start, hstart, -, hfound⟩ := resolve_foldl_push ha.isName (namesOfTarget_ne_nil a) h
  obtain ⟨start', hstart', -, hfound'⟩ := resolve_foldl_push hb.isName (namesOfTarget_ne_nil b) h'
  cases hstart.symm.trans hstart'
  exact namesOfTarget_inj (List.append_cancel_left (hfound.symm.trans hfound'))

end Targets

/-! ## Targets of declaration files -/

theorem eq_of_ofPart?_name {part : Name} (h : Path.Component.ofPart? part = some (.name name)) :
    part = name := by
  unfold Path.Component.ofPart? at h
  split at h
  · cases h
  split at h
  · cases h
  · cases h
    rfl

theorem slash_not_mem_of_mem_components (h : .name name ∈ p.components) : slash ∉ name := by
  have hparts : ∀ {parts : List Name}, (∀ part ∈ parts, part ∈ p.parts) →
      .name name ∈ parts.filterMap Path.Component.ofPart? → slash ∉ name := by
    intro parts hsub hmem
    obtain ⟨part, hpart, hname⟩ := List.mem_filterMap.1 hmem
    rw [← eq_of_ofPart?_name hname]
    exact not_mem_of_mem_splitOn (hsub part hpart)
  unfold Path.components at h
  split at h
  · exact hparts (fun _ => id) ((List.mem_cons.1 h).resolve_left nofun)
  split at h
  · cases h
  rename_i first rest hfirst
  rw [hfirst] at hparts
  split at h
  · exact hparts (fun _ => List.mem_cons_of_mem first)
      ((List.mem_cons.1 h).resolve_left nofun)
  · exact hparts (fun _ => id) h

theorem slash_not_mem_of_ofUtf8? {text : String} (h : ofUtf8? name = some text)
    (hname : slash ∉ name) : '/' ∉ text.toList := by
  rwa [← slash_mem_utf8_iff, utf8_of_ofUtf8? h]

theorem slash_not_mem_of_directoryNames {steps : List Path.Component} {segments : List String}
    (h : directoryNames steps = some segments)
    (hsteps : ∀ name, .name name ∈ steps → slash ∉ name) :
    ∀ segment ∈ segments, '/' ∉ segment.toList := by
  fun_induction directoryNames steps generalizing segments with
  | case1 =>
    cases h
    exact nofun
  | case2 rest ih => exact ih h fun name hname => hsteps name (List.mem_cons_of_mem _ hname)
  | case3 name rest segment segments hsegments hsegment ih =>
    cases h
    have hfirst := slash_not_mem_of_ofUtf8? hsegment (hsteps name List.mem_cons_self)
    have hrest := ih hsegments fun name hname => hsteps name (List.mem_cons_of_mem _ hname)
    exact List.forall_mem_cons.2 ⟨hfirst, hrest⟩
  | case4 | case5 | case6 => cases h

theorem mem_of_mem_stem {b : UInt8} (h : b ∈ Path.stem name) : b ∈ name := by
  unfold Path.stem at h
  split at h
  · exact h
  · rename_i before after hcut
    rw [(cutLast_eq_some hcut).1]
    exact List.mem_append_left _ h
  · exact h

theorem slash_not_mem_of_targetOfPath {relative : Path} {target : String}
    (h : targetOfPath relative = .ok target) : '/' ∉ target.toList := by
  unfold targetOfPath at h
  split at h
  · rename_i stem segments hstem hsegments
    cases h
    have hdirectories : ∀ segment ∈ segments, '/' ∉ segment.toList :=
      slash_not_mem_of_directoryNames hsegments fun name hname =>
        slash_not_mem_of_mem_components (List.dropLast_subset _ hname)
    obtain ⟨bytes, hbytes, htext⟩ := Option.bind_eq_some_iff.1 hstem
    obtain ⟨name, hname, rfl⟩ := Option.map_eq_some_iff.1 hbytes
    have hlast : '/' ∉ stem.toList := by
      refine slash_not_mem_of_ofUtf8? htext fun hmem => ?_
      unfold Path.fileName? at hname
      split at hname
      · rename_i found hfound
        cases hname
        exact slash_not_mem_of_mem_components (List.mem_of_getLast? hfound) (mem_of_mem_stem hmem)
      · cases hname
    intro hmem
    rw [String.toList_intercalate, show ".".toList = ['.'] from rfl] at hmem
    obtain ⟨piece, hpiece, hslash⟩ := (mem_intercalate_iff (by decide)).1 hmem
    obtain ⟨segment, hsegment, rfl⟩ := List.mem_map.1 hpiece
    rcases List.mem_append.1 hsegment with hsegment | hsegment
    · exact hdirectories segment hsegment hslash
    · rw [List.mem_singleton.1 hsegment] at hslash
      exact hlast hslash
  · cases h

theorem sourceAt_eq_ok_iff {r : Roots} {p : Path} {s : Source} :
    r.sourceAt p = .ok s ↔
      ∃ relative, belowRoot r.source p = .ok relative ∧ targetOfPath relative = .ok s.target ∧
        s.path = p := by
  unfold Roots.sourceAt
  constructor
  · intro h
    split at h
    · cases h
    rename_i relative hrelative
    split at h
    · cases h
    rename_i target htarget
    cases h
    exact ⟨relative, hrelative, htarget, rfl⟩
  · rintro ⟨relative, hrelative, htarget, rfl⟩
    rw [hrelative]
    dsimp only
    rw [htarget]

/-! ## Declarations -/

/-- What the search for declarations asks for. -/
def Roots.sought (r : Roots) : Pattern :=
  .ofDirectory (r.source.bytes.reverse.dropWhile fun b => b = slash ∨ b = 0x5c).reverse sourceEnding

/-- The pattern of the declarations can be read. -/
theorem read?_pattern (r : Roots) : Pattern.read? r.pattern = some r.sought :=
  Pattern.read?_escape (by decide) _

/-- The files among what a search has found. -/
def filesAmong (v : Volume) (found : List (Except Path Path)) : List Path :=
  found.filterMap fun
    | .ok p => if v.isFile p then some p else none
    | .error _ => none

/-- The paths of the declarations below the source root, in the order of the directories. -/
def Roots.declarationPaths (r : Roots) (v : Volume) : List Path :=
  filesAmong v (v.search r.sought)

section Found

variable {r : Roots} {rest found : List (Except Path Path)} {sources : List Source}

theorem filesAmong_cons_of_isFile (h : v.isFile p = true) :
    filesAmong v (.ok p :: rest) = p :: filesAmong v rest :=
  List.filterMap_cons_some (if_pos h)

theorem filesAmong_cons_of_not_isFile (h : ¬v.isFile p = true) :
    filesAmong v (.ok p :: rest) = filesAmong v rest :=
  List.filterMap_cons_none (if_neg h)

/-- **Declarations are found if every directory could be listed and every file gives a target.** -/
theorem sourcesAmong_eq_ok_iff :
    r.sourcesAmong v found = .ok sources ↔ (∀ p, .error p ∉ found) ∧
      List.Forall₂ (fun p s => r.sourceAt p = .ok s) (filesAmong v found) sources := by
  induction found generalizing sources with
  | nil =>
    constructor
    · rintro ⟨⟩
      exact ⟨nofun, .nil⟩
    · rintro ⟨-, ⟨⟩⟩
      rfl
  | cons item rest ih =>
    cases item with
    | error p => exact ⟨nofun, fun h => absurd List.mem_cons_self (h.1 p)⟩
    | ok p =>
      have hlisted : (∀ q, Except.error q ∉ .ok p :: rest) ↔ ∀ q, .error q ∉ rest := by simp
      rw [hlisted, Roots.sourcesAmong]
      by_cases hfile : v.isFile p = true
      · rw [filesAmong_cons_of_isFile hfile, List.forall₂_cons_left_iff, if_neg (by simp [hfile])]
        constructor
        · intro h
          split at h
          · cases h
          rename_i source hsource
          split at h
          · cases h
          rename_i others hothers
          cases h
          obtain ⟨hrest, hothers⟩ := ih.1 hothers
          exact ⟨hrest, source, others, hsource, hothers, rfl⟩
        · rintro ⟨hrest, source, others, hsource, hothers, rfl⟩
          rw [hsource, ih.2 ⟨hrest, hothers⟩]
      · rw [filesAmong_cons_of_not_isFile hfile, if_pos (by simp [hfile]), ih]

/-- Declarations are found if the source root is text and all that is found below it can be used. -/
theorem declarations_eq_ok_iff :
    r.declarations v = .ok sources ↔
      r.source.text?.isSome ∧ ∃ found, r.sourcesAmong v (v.search r.sought) = .ok found ∧
        (found.mergeSort fun a b => !decide (b.target < a.target)) = sources := by
  unfold Roots.declarations
  rw [← Option.isNone_eq_false_iff, read?_pattern]
  constructor
  · intro h
    split at h
    · cases h
    rename_i htext
    dsimp only at h
    split at h
    · cases h
    rename_i found hfound
    exact ⟨eq_false_of_ne_true htext, found, hfound, Except.ok.inj h⟩
  · rintro ⟨htext, found, hfound, rfl⟩
    rw [htext]
    dsimp only
    rw [hfound]
    rfl

theorem search_of_walk {pattern : Pattern} {base : Path} {location : Location}
    (hwalk : walk v pattern = .ok (some base))
    (hbase : v.resolve base = .ok location) :
    v.search pattern = ((v.below location).filter (v.reaches location)).flatMap
      (v.foundAt base location pattern.ending) := by
  rw [Volume.search, hwalk]
  dsimp only
  rw [hbase]

/-- Where the names are in order, they are not put in order. -/
theorem search_of_sorted {pattern : Pattern} (base : Path) (location : Location)
    (hwalk : walk v pattern = .ok (some base)) (hbase : v.resolve base = .ok location)
    (hnames : (v.namesBelow location).Pairwise fun a b => ¬b < a) :
    v.search pattern = ((v.namesBelow location).filter (v.reaches location)).flatMap
      (v.foundAt base location pattern.ending) := by
  have hbelow : v.below location = v.namesBelow location :=
    List.mergeSort_of_pairwise (hnames.imp fun h => by simpa using h)
  rw [search_of_walk hwalk hbase, hbelow]

theorem declarations_of_sorted {base : Path} {location : Location}
    (htext : r.source.text?.isSome) (hwalk : walk v r.sought = .ok (some base))
    (hbase : v.resolve base = .ok location)
    (hnames : (v.namesBelow location).Pairwise fun a b => ¬b < a)
    (hfound : r.sourcesAmong v (((v.namesBelow location).filter (v.reaches location)).flatMap
      (v.foundAt base location r.sought.ending)) = .ok sources)
    (htargets : sources.Pairwise fun a b => ¬b.target < a.target) :
    r.declarations v = .ok sources := by
  refine declarations_eq_ok_iff.2 ⟨htext, sources, ?_, ?_⟩
  · rw [search_of_sorted base location hwalk hbase hnames, hfound]
  · exact List.mergeSort_of_pairwise (htargets.imp fun h => by simpa using h)

/-- The target of a declaration file has no slash. -/
theorem slash_not_mem_of_declarations (h : r.declarations v = .ok sources) :
    ∀ s ∈ sources, '/' ∉ s.target.toList := by
  obtain ⟨-, found, hfound, rfl⟩ := declarations_eq_ok_iff.1 h
  have hslash : ∀ s ∈ found, '/' ∉ s.target.toList := by
    refine forall_mem_right_of_forall₂ (sourcesAmong_eq_ok_iff.1 hfound).2 fun p _ s hs => ?_
    obtain ⟨relative, -, htarget, -⟩ := sourceAt_eq_ok_iff.1 hs
    exact slash_not_mem_of_targetOfPath htarget
  exact fun s hs => hslash s (List.mem_mergeSort.1 hs)

end Found

end ValueClass
