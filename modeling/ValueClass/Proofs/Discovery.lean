import Mathlib.Data.List.Perm.Basic
import ValueClass.Proofs.Check
import ValueClass.Proofs.Search

/-!
# What is discovered

Declarations are found by a search for what is below the source root. However the root is spelled,
with single or double dots, with slashes too many, relative or absolute, the search comes to where
the root leads, and what it found is named from there. Two spellings lead it astray: backslashes at
the end are taken off with the slashes, and after single dots an empty part is looked for.

* `Path.Searchable`: all other spellings.
* `search_sought`: **the search for declarations finds what it must find.**
* `belowRoot_of_components`: what is found there is named from there.
* `declarations_exact`: **one declaration is found for each file with the ending of declarations**,
  in the order of the targets.
-/

namespace ValueClass

open Text

variable {r : Roots} {v : Volume} {p source output : Path} {location found root : Location}
  {name part : Name} {names parts : List Name} {taken : List Path.Component}

/-! ## Spellings of the root -/

/-- **A spelling of a root that a search understands.** -/
structure Path.Searchable (p : Path) : Prop where
  /-- Before the slashes at the end there is no backslash. -/
  backslash : p.trimmed.getLast? ≠ some 0x5c
  /-- What comes after single dots at the beginning is not empty. -/
  start : p.PlainStart

theorem dropWhile_of_head? {bs : List UInt8}
    (h : (bs.dropWhile (· = slash)).head? ≠ some 0x5c) :
    (bs.dropWhile fun b => b = slash ∨ b = 0x5c) = bs.dropWhile (· = slash) := by
  induction bs with
  | nil => rfl
  | cons b bs ih =>
    by_cases hb : b = slash
    · subst hb
      exact ih h
    · have hkept : (b :: bs).dropWhile (· = slash) = b :: bs := by simp [hb]
      rw [hkept] at h ⊢
      have hbackslash : b ≠ 0x5c := fun heq => h (by rw [heq]; rfl)
      simp [hb, hbackslash]

/-- Only slashes are taken off the root. -/
theorem sought_eq (h : r.source.trimmed.getLast? ≠ some 0x5c) :
    r.sought = .ofDirectory r.source.trimmed sourceEnding := by
  rw [Path.trimmed, List.getLast?_reverse] at h
  rw [Roots.sought, dropWhile_of_head? h, Path.trimmed]

/-- **The search for declarations finds what it must find.** -/
theorem search_sought (hv : v.WellFormed) (hsearchable : r.source.Searchable)
    (hroot : v.resolve r.source = .ok root) :
    SearchContract v r.source root sourceEnding (v.search r.sought) := by
  rw [sought_eq hsearchable.backslash]
  exact search_meets_contract hv hsearchable.start hroot sourceEnding

/-! ## Names below the root -/

/-- **What goes on by names from the steps of the root is named by them**, whether or not the steps
have the single dot of the root in front. -/
theorem belowRoot_of_components
    (h : p.components = source.components.filter (· ≠ .current) ++ names.map .name) :
    belowRoot source p = .ok (.ofParts names) := by
  have hcurrent : Path.Component.current ∉ p.components := by
    rw [h]
    simp
  unfold belowRoot
  dsimp only
  have hnamed : ∀ {name : Path.Component → Name}, (∀ n, name (.name n) = n) →
      (names.map Path.Component.name).map name = names := by
    intro name hname
    rw [List.map_map]
    exact (List.map_congr_left fun n _ => hname n).trans (List.map_id names)
  split
  · rename_i rest hrest
    replace hrest := (List.append_eq_of_isPrefixOf?_eq_some hrest).symm
    -- the root has no single dot, or the path would have it too
    have hplain : source.components.filter (· ≠ .current) = source.components := by
      refine List.filter_eq_self.2 fun component hmem => decide_eq_true ?_
      rintro rfl
      exact hcurrent (by rw [hrest]; exact List.mem_append_left _ hmem)
    rw [h, hplain] at hrest
    rw [← List.append_cancel_left hrest, hnamed fun n => rfl]
  · rw [List.isPrefixOf?_eq_some_iff_append_eq.2 h.symm]
    dsimp only
    rw [hnamed fun n => rfl]

theorem components_ofParts (hne : names ≠ []) (hnames : ∀ name ∈ names, IsName name) :
    (Path.ofParts names).components = names.map .name := by
  obtain ⟨first, rest, rfl⟩ := List.exists_cons_of_ne_nil hne
  have hfirst := hnames first List.mem_cons_self
  have hbytes : (Path.ofParts (first :: rest)).bytes = List.intercalate [slash] (first :: rest) :=
    rfl
  have hparts : (Path.ofParts (first :: rest)).parts = first :: rest := by
    rw [Path.parts, hbytes]
    exact List.splitOn_intercalate slash (fun name hname => (hnames name hname).slash_not_mem) hne
  have habsolute : (Path.ofParts (first :: rest)).isAbsolute = false := by
    obtain ⟨b, bs, hb⟩ := List.exists_cons_of_ne_nil hfirst.ne_nil
    have hslash := hfirst.slash_not_mem
    rw [Path.isAbsolute, hbytes, intercalate_cons, hb]
    rw [hb] at hslash
    simpa using fun heq => hslash (by simp [heq])
  have hsteps : (first :: rest).filterMap Path.Component.ofPart? = (first :: rest).map .name := by
    rw [← List.filterMap_eq_map]
    exact List.filterMap_congr fun name hname => ofPart?_of_isName (hnames name hname)
  rw [components_eq_stepsOf, habsolute, hparts]
  unfold stepsOf
  simp only [hfirst.ne_dot, if_false]
  exact hsteps

/-! ## Names as text -/

/-- All names are text. -/
def Volume.Legible (v : Volume) : Prop :=
  ∀ e ∈ v.entries, ∀ name ∈ e.1, (ofUtf8? name).isSome

theorem isSome_ofUtf8?_iff {bytes : List UInt8} :
    (ofUtf8? bytes).isSome ↔ ∃ text, utf8 text = bytes := by
  rw [Option.isSome_iff_exists]
  constructor
  · rintro ⟨text, htext⟩
    exact ⟨text, utf8_of_ofUtf8? htext⟩
  · rintro ⟨text, rfl⟩
    exact ⟨text, ofUtf8?_utf8 text⟩

/-- What stands before a dot in a text is a text. -/
theorem exists_utf8_of_dot {cs : List Char} {before after : List UInt8}
    (h : cs.flatMap String.utf8EncodeChar = before ++ dot :: after) :
    ∃ front : List Char, front.flatMap String.utf8EncodeChar = before := by
  induction cs generalizing before with
  | nil => simp at h
  | cons c cs ih =>
    rw [List.flatMap_cons, List.append_eq_append_iff] at h
    rcases h with ⟨more, rfl, hmore⟩ | ⟨more, hc, hmore⟩
    · obtain ⟨front, hfront⟩ := ih hmore
      exact ⟨c :: front, by rw [List.flatMap_cons, hfront]⟩
    · -- the dot would be within the character, which is a dot then
      cases more with
      | nil => exact ⟨[c], by simpa using hc⟩
      | cons b more =>
        obtain ⟨rfl, -⟩ := List.cons.inj hmore
        have hdot : '.' = c := by
          refine (mem_utf8EncodeChar_iff (c := '.') (by decide)).1 ?_
          rw [hc]
          exact List.mem_append_right _ List.mem_cons_self
        subst hdot
        have hlength := congrArg List.length hc
        rw [utf8EncodeChar_of_lt (by decide), List.length_append] at hlength
        simp only [List.length_cons, List.length_nil] at hlength
        exact ⟨[], (List.eq_nil_of_length_eq_zero (by omega)).symm⟩

theorem isSome_stem (h : (ofUtf8? name).isSome) : (ofUtf8? (Path.stem name)).isSome := by
  unfold Path.stem
  split
  · exact h
  · rename_i before after hcut
    obtain ⟨text, htext⟩ := isSome_ofUtf8?_iff.1 h
    rw [(cutLast_eq_some hcut).1, utf8_eq_flatMap] at htext
    obtain ⟨front, hfront⟩ := exists_utf8_of_dot htext
    refine isSome_ofUtf8?_iff.2 ⟨String.ofList front, ?_⟩
    rw [utf8_eq_flatMap, String.toList_ofList, hfront]
  · exact h

theorem isSome_directoryNames (h : ∀ name ∈ names, (ofUtf8? name).isSome) :
    (directoryNames (names.map .name)).isSome := by
  induction names with
  | nil => rfl
  | cons name rest ih =>
    obtain ⟨hname, hrest⟩ := List.forall_mem_cons.1 h
    obtain ⟨segment, hsegment⟩ := Option.isSome_iff_exists.1 hname
    obtain ⟨segments, hsegments⟩ := Option.isSome_iff_exists.1 (ih hrest)
    rw [List.map_cons, directoryNames, hsegment, hsegments]
    rfl

/-- Names that are text give a target. -/
theorem exists_targetOfPath (hne : names ≠ []) (hnames : ∀ name ∈ names, IsName name)
    (htext : ∀ name ∈ names, (ofUtf8? name).isSome) :
    ∃ target, targetOfPath (.ofParts names) = .ok target := by
  obtain ⟨front, last, rfl⟩ := (List.eq_nil_or_concat' names).resolve_left hne
  obtain ⟨hfront, hlast⟩ := List.forall_mem_append.1 htext
  obtain ⟨stem, hstem⟩ := Option.isSome_iff_exists.1 (isSome_stem (hlast last (by simp)))
  obtain ⟨segments, hsegments⟩ := Option.isSome_iff_exists.1 (isSome_directoryNames hfront)
  have hcomponents := components_ofParts hne hnames
  rw [List.map_append, List.map_cons, List.map_nil] at hcomponents
  refine ⟨String.intercalate "." (segments ++ [stem]), ?_⟩
  unfold targetOfPath Path.fileName?
  rw [hcomponents, List.getLast?_concat, List.dropLast_concat, hsegments]
  simp only [Option.map_some, Option.bind_some, hstem]

theorem isSome_of_follow (hv : v.Legible) (h : v.follow location parts = .ok found) :
    ∀ part ∈ parts, (ofUtf8? part).isSome := by
  fun_induction Volume.follow v location parts with
  | case1 => exact List.forall_mem_nil _
  | case2 => cases h
  | case3 location part rest hplace hstay ih =>
    refine List.forall_mem_cons.2 ⟨isSome_ofUtf8?_iff.2 ?_, ih h⟩
    rcases hstay with rfl | rfl
    · exact ⟨"", rfl⟩
    · exact ⟨".", rfl⟩
  | case4 location rest hplace hstay ih =>
    exact List.forall_mem_cons.2 ⟨isSome_ofUtf8?_iff.2 ⟨"..", rfl⟩, ih h⟩
  | case5 => cases h
  | case6 location part rest hplace hstay hup entry hentry ih =>
    have hmem := mem_entries_of_lookup (by simp) hentry
    exact List.forall_mem_cons.2 ⟨hv _ hmem part (by simp), ih h⟩

theorem exists_utf8_join (h : ∀ part ∈ parts, (ofUtf8? part).isSome) :
    ∃ text, utf8 text = List.intercalate [slash] parts := by
  have hrest : ∀ {rest : List Name}, (∀ part ∈ rest, (ofUtf8? part).isSome) →
      ∃ text, utf8 text = rest.flatMap (slash :: ·) := by
    intro rest hrest
    induction rest with
    | nil => exact ⟨"", rfl⟩
    | cons part rest ih =>
      obtain ⟨hpart, hparts⟩ := List.forall_mem_cons.1 hrest
      obtain ⟨first, rfl⟩ := isSome_ofUtf8?_iff.1 hpart
      obtain ⟨text, htext⟩ := ih hparts
      refine ⟨"/" ++ first ++ text, ?_⟩
      rw [utf8_append, utf8_append, htext, List.flatMap_cons]
      rfl
  cases parts with
  | nil => exact ⟨"", rfl⟩
  | cons part rest =>
    obtain ⟨hpart, hparts⟩ := List.forall_mem_cons.1 h
    obtain ⟨first, rfl⟩ := isSome_ofUtf8?_iff.1 hpart
    obtain ⟨text, htext⟩ := hrest hparts
    exact ⟨first ++ text, by rw [utf8_append, htext, intercalate_cons]⟩

/-- A path that leads somewhere is text. -/
theorem isSome_text? (hv : v.Legible) (h : v.resolve p = .ok location) : p.text?.isSome := by
  obtain ⟨text, htext⟩ := exists_utf8_join (isSome_of_follow hv (resolve_eq_ok_iff.1 h).2)
  refine isSome_ofUtf8?_iff.2 ⟨text, ?_⟩
  rw [htext, Path.parts, List.intercalate_splitOn]

/-! ## Declarations -/

/-- A declaration below a location: a file, with the ending of declarations. -/
def Volume.Declares (v : Volume) (root : Location) (names : List Name) : Prop :=
  (∃ content, v.lookup (root ++ names) = some (.file content)) ∧
    ∃ front name, names = front ++ [name] ∧ sourceEnding <:+ name

/-- The files among what a search finds are those of the entries that are files. -/
theorem forall₂_filesAmong {entries : List (List Name)} {found : List (Except Path Path)}
    (h : List.Forall₂ (fun names item => ∃ p, item = .ok p ∧ LeadsBelow v source root names p)
      entries found) :
    List.Forall₂ (LeadsBelow v source root) (entries.filter (v.isFileAt root))
      (filesAmong v found) := by
  induction h with
  | nil => exact .nil
  | cons hitem _ ih =>
    obtain ⟨p, rfl, hp⟩ := hitem
    have hfile := isFile_of_resolve hp.2
    by_cases hkept : v.isFile p = true
    · rw [filesAmong_cons_of_isFile hkept, List.filter_cons_of_pos (hfile ▸ hkept)]
      exact .cons hp ih
    · rw [filesAmong_cons_of_not_isFile hkept, List.filter_cons_of_neg (hfile ▸ hkept)]
      exact ih

/-- The files among the entries with the ending are the declarations. -/
theorem mem_filter_isFileAt_iff (hlegible : v.Legible) {entries : List (List Name)}
    (h : ∀ names, names ∈ entries ↔ v.Holds root sourceEnding names) :
    names ∈ entries.filter (v.isFileAt root) ↔ v.Declares root names := by
  rw [List.mem_filter, h, isFileAt_iff]
  constructor
  · rintro ⟨⟨-, front, name, hnames, -, hending⟩, hfile⟩
    exact ⟨hfile, front, name, hnames, hending⟩
  · rintro ⟨⟨content, hfile⟩, front, name, rfl, hending⟩
    have hmem := mem_entries_of_lookup (by simp) hfile
    exact ⟨⟨⟨_, hfile⟩, front, name, rfl, hlegible _ hmem name (by simp), hending⟩, content, hfile⟩

/-- A source root is accepted if it leads to a directory. -/
theorem toCheck_eq_ok_iff {r : Roots} :
    Roots.toCheck v source output = .ok r ↔ r = ⟨source, output⟩ ∧
      ∃ root, v.resolve source = .ok root ∧ v.lookup root = some .directory := by
  rw [← isDirectory_iff]
  unfold Roots.toCheck
  constructor
  · intro h
    split at h
    · cases h
    split at h
    · cases h
    rename_i hdirectory
    cases h
    exact ⟨rfl, by simpa using hdirectory⟩
  · rintro ⟨rfl, hdirectory⟩
    obtain ⟨root, hresolve, hlookup⟩ := isDirectory_iff.1 hdirectory
    have hexists := exists?_iff.2 ⟨root, _, hresolve, hlookup⟩
    rw [hexists, hdirectory]
    rfl

/-- A file with the ending of declarations is one, at the path that leads to it from the root. -/
theorem exists_sourceAt (hv : v.WellFormed) (hlegible : v.Legible) (output : Path)
    (hp : LeadsBelow v source root names p) (h : v.Declares root names) :
    ∃ s, (targetOfPath (.ofParts names) = .ok s.target ∧ v.resolve s.path = .ok (root ++ names)) ∧
      Roots.sourceAt ⟨source, output⟩ p = .ok s := by
  obtain ⟨⟨content, hfile⟩, front, name, hends, -⟩ := h
  have hne : names ≠ [] := by simp [hends]
  have hmem := mem_entries_of_lookup (by simp [hne]) hfile
  have hnames : ∀ name ∈ names, IsName name :=
    fun name hname => hv.isName _ hmem name (List.mem_append_right _ hname)
  have htext : ∀ name ∈ names, (ofUtf8? name).isSome :=
    fun name hname => hlegible _ hmem name (List.mem_append_right _ hname)
  obtain ⟨target, htarget⟩ := exists_targetOfPath hne hnames htext
  exact ⟨⟨target, p⟩, ⟨htarget, hp.2⟩,
    sourceAt_eq_ok_iff.2 ⟨_, belowRoot_of_components hp.1, htarget, rfl⟩⟩

/-- **One declaration is found for each file with the ending of declarations.** However a root that
leads to a directory is spelled, as long as its spelling is one that a search understands, the
declarations found are those below that directory, each with the target of the names that lead to it
from there, in the order of the targets. Where a directory has to be listed and cannot be, none are
given. -/
theorem declarations_exact (hv : v.WellFormed) (hlegible : v.Legible)
    (h : Roots.toCheck v source output = .ok r) (hsource : source.Searchable) :
    ∃ root, v.resolve source = .ok root ∧ v.lookup root = some .directory ∧
      (v.Listable source → ∃ files sources, r.declarations v = .ok sources ∧ files.Nodup ∧
        (∀ names, names ∈ files ↔ v.Declares root names) ∧
        List.Forall₂ (fun names s => targetOfPath (.ofParts names) = .ok s.target ∧
          v.resolve s.path = .ok (root ++ names)) files sources ∧
        sources.Pairwise (·.target ≤ ·.target)) ∧
      (¬v.Listable source → ∃ fault, r.declarations v = .error fault) := by
  obtain ⟨rfl, root, hresolve, hdirectory⟩ := toCheck_eq_ok_iff.1 h
  have hcontract := search_sought (r := ⟨source, output⟩) hv hsource hresolve
  refine ⟨root, hresolve, hdirectory, fun hlistable => ?_, fun hnot => ?_⟩
  · -- what the search finds is all that the contract of searches says of it
    obtain ⟨entries, hnodup, hmem, hentries⟩ := hcontract.listed hlistable
    have hdeclares : ∀ names, names ∈ entries.filter (v.isFileAt root) ↔ v.Declares root names :=
      fun names => mem_filter_isFileAt_iff hlegible hmem
    have hlisted : ∀ q, .error q ∉ v.search (Roots.sought ⟨source, output⟩) := by
      intro q hq
      obtain ⟨p, hp⟩ := forall_mem_right_of_forall₂ (P := fun item => ∃ p, item = .ok p) hentries
        (fun names _ item hitem => ⟨hitem.choose, hitem.choose_spec.1⟩) _ hq
      cases hp
    obtain ⟨found, hfiles, hfound⟩ := exists_between_of_forall₂ <|
      forall₂_imp_of_mem (forall₂_filesAmong hentries) fun names hnames p hp =>
        exists_sourceAt hv hlegible output hp ((hdeclares names).1 hnames)
    have hdeclarations := declarations_eq_ok_iff.2 ⟨isSome_text? hlegible hresolve, found,
      sourcesAmong_eq_ok_iff.2 ⟨hlisted, hfound.flip⟩, rfl⟩
    -- the files in the order of their targets
    obtain ⟨files, hsorted, hperm⟩ :=
      List.perm_comp_forall₂ (List.mergeSort_perm found _) hfiles.flip
    refine ⟨files, _, hdeclarations, ?_, fun names => ?_, hsorted.flip,
      sorted_declarations hdeclarations⟩
    · exact hperm.nodup_iff.2 (hnodup.filter _)
    · rw [hperm.mem_iff, hdeclares]
  · obtain ⟨q, hq⟩ := hcontract.unlisted hnot
    cases hdeclarations : Roots.declarations ⟨source, output⟩ v with
    | error fault => exact ⟨fault, rfl⟩
    | ok sources =>
      obtain ⟨-, found, hfound, -⟩ := declarations_eq_ok_iff.1 hdeclarations
      exact absurd hq ((sourcesAmong_eq_ok_iff.1 hfound).1 q)

/-- A root that is spelled with dots of all kinds and with a slash at the end, beside a directory
that cannot be listed. -/
theorem declarations_exact_dots :
    let root : Location := [utf8 "w", utf8 "a[*]"]
    let v : Volume := ⟨[([utf8 "w"], .directory), (root, .directory),
      (root ++ [utf8 "B.scroole"], .file []), (root ++ [utf8 "D.scroole"], .directory),
      (root ++ [utf8 "p"], .directory), (root ++ [utf8 "p", utf8 "C.scroole"], .file []),
      ([utf8 "w", utf8 "z"], .directory)], [utf8 "w"], [[utf8 "w", utf8 "z"]]⟩
    let source : Path := .ofString "./../w/a[*]/./"
    let sources : List Source := [⟨"B", .ofString "../w/a[*]/./B.scroole"⟩,
      ⟨"p.C", .ofString "../w/a[*]/./p/C.scroole"⟩]
    let r : Roots := ⟨source, .ofString "o"⟩
    v.WellFormed ∧ v.Legible ∧ source.Searchable ∧ v.Listable source ∧
      Roots.toCheck v source r.output = .ok r ∧ r.declarations v = .ok sources ∧
      ∃ files, files.Nodup ∧ (∀ names, names ∈ files ↔ v.Declares root names) ∧
        List.Forall₂ (fun names s => targetOfPath (.ofParts names) = .ok s.target ∧
          v.resolve s.path = .ok (root ++ names)) files sources := by
  intro root v source sources r
  have hv : v.WellFormed :=
    ⟨by decide +kernel, by decide +kernel, by decide +kernel, by decide +kernel⟩
  have hlegible : v.Legible := by
    unfold Volume.Legible
    decide +kernel
  have hsource : source.Searchable := ⟨by decide +kernel, fun _ => by decide +kernel⟩
  have hresolve : v.resolve source = .ok root := by decide +kernel
  have hwalk : walk v r.sought = .ok (some (.ofString "../w/a[*]/.")) := by decide +kernel
  have hbase : v.resolve (.ofString "../w/a[*]/.") = .ok root := by decide +kernel
  have hlistable : v.Listable source := by
    refine ⟨by decide +kernel, fun there hthere => ?_⟩
    cases hresolve.symm.trans hthere
    decide +kernel
  have hcheck : Roots.toCheck v source r.output = .ok r :=
    toCheck_eq_ok_iff.2 ⟨rfl, root, hresolve, by decide +kernel⟩
  have hsources : r.declarations v = .ok sources :=
    declarations_of_sorted (by decide +kernel) hwalk hbase (by decide +kernel) (by decide +kernel)
      (by decide +kernel)
  obtain ⟨there, hthere, -, hexact, -⟩ := declarations_exact hv hlegible hcheck hsource
  cases hresolve.symm.trans hthere
  obtain ⟨files, found, hfound, hnodup, hmem, hfiles, -⟩ := hexact hlistable
  cases hsources.symm.trans hfound
  exact ⟨hv, hlegible, hsource, hlistable, hcheck, hsources, files, hnodup, hmem, hfiles⟩

/-- Below a root whose name ends in a backslash nothing is found, and neither below one that is
spelled with two slashes after a single dot. -/
theorem declarations_missed :
    let v : Volume := ⟨[([utf8 "a\\"], .directory), ([utf8 "a\\", utf8 "A.scroole"], .file []),
      ([utf8 "b"], .directory), ([utf8 "b", utf8 "B.scroole"], .file [])], [], []⟩
    let backslash : Roots := ⟨.ofString "a\\", .ofString "o"⟩
    let slashes : Roots := ⟨.ofString ".//b", .ofString "o"⟩
    v.WellFormed ∧ v.Legible ∧
      (Roots.toCheck v backslash.source backslash.output = .ok backslash ∧
        v.resolve backslash.source = .ok [utf8 "a\\"] ∧
        v.Declares [utf8 "a\\"] [utf8 "A.scroole"] ∧ backslash.declarations v = .ok []) ∧
      Roots.toCheck v slashes.source slashes.output = .ok slashes ∧
        v.resolve slashes.source = .ok [utf8 "b"] ∧ v.Declares [utf8 "b"] [utf8 "B.scroole"] ∧
        slashes.declarations v = .ok [] := by
  intro v backslash slashes
  have hv : v.WellFormed :=
    ⟨by decide +kernel, by decide +kernel, by decide +kernel, by decide +kernel⟩
  have hlegible : v.Legible := by
    unfold Volume.Legible
    decide +kernel
  have hfirst : v.Declares [utf8 "a\\"] [utf8 "A.scroole"] := by
    have hfile : v.lookup [utf8 "a\\", utf8 "A.scroole"] = some (.file []) := by decide +kernel
    exact ⟨⟨[], hfile⟩, [], _, rfl, by decide⟩
  have hsecond : v.Declares [utf8 "b"] [utf8 "B.scroole"] := by
    have hfile : v.lookup [utf8 "b", utf8 "B.scroole"] = some (.file []) := by decide +kernel
    exact ⟨⟨[], hfile⟩, [], _, rfl, by decide⟩
  have hresolve : v.resolve backslash.source = .ok [utf8 "a\\"] := by decide +kernel
  have hcheck : Roots.toCheck v backslash.source backslash.output = .ok backslash :=
    toCheck_eq_ok_iff.2 ⟨rfl, _, hresolve, by decide +kernel⟩
  have hmissed : backslash.declarations v = .ok [] :=
    declarations_eq_ok_iff.2 ⟨by decide +kernel, [], by decide +kernel, List.mergeSort_nil⟩
  have hresolve' : v.resolve slashes.source = .ok [utf8 "b"] := by decide +kernel
  have hcheck' : Roots.toCheck v slashes.source slashes.output = .ok slashes :=
    toCheck_eq_ok_iff.2 ⟨rfl, _, hresolve', by decide +kernel⟩
  have hmissed' : slashes.declarations v = .ok [] :=
    declarations_eq_ok_iff.2 ⟨by decide +kernel, [], by decide +kernel, List.mergeSort_nil⟩
  exact ⟨hv, hlegible, ⟨hcheck, hresolve, hfirst, hmissed⟩, hcheck', hresolve', hsecond, hmissed'⟩

end ValueClass
