import ValueClass.Proofs.Discovery

/-!
# What stops a generation

A source that cannot be written stops a generation, and a declaration that fails does not. But
declarations are found by a search and named by their paths. If a directory cannot be listed, or a
declaration is below one whose name is not text and so has no target, nothing is generated at all.

* `exists_unwritable_of_writeAll`: writing is stopped by the first source that cannot be written.
* `exists_sourceAt_iff`: a declaration has a target exactly if its path goes on from the source root
  by names that are text.
* `exists_unusable_of_sourcesAmong`: finding is stopped by the first directory that cannot be listed
  or declaration that has no target.
* `stopped_by_writing_iff`: **a generation is stopped by nothing but writing exactly if all that is
  found can be used.**
-/

namespace ValueClass

open Text

variable {r : Roots} {policy : OnFailure} {v after : Volume} {p q source output : Path}
  {name : Name} {names : List Name} {code : String} {fault : ProjectFault}
  {taken : List Path.Component}

/-! ## Writing -/

/-- **What can go wrong when a source is written**: a directory that it is to be in cannot be made,
or its file cannot be written. -/
inductive Unwritable (v : Volume) (p : Path) (code : String) : Volume → ProjectFault → Prop
  | directory {made : Volume} {fault : IoFault}
      (h : v.makeDirectories (p.parent?.getD ⟨[]⟩) = (made, some fault)) :
      Unwritable v p code made (.io (p.parent?.getD ⟨[]⟩) fault)
  | file {made : Volume} {fault : IoFault}
      (hmade : v.makeDirectories (p.parent?.getD ⟨[]⟩) = (made, none))
      (h : made.write p (utf8 code) = .error fault) :
      Unwritable v p code made (.io p fault)

theorem unwritable_of_writeSource (h : writeSource v p code = (after, some fault)) :
    Unwritable v p code after fault := by
  unfold writeSource at h
  dsimp only at h
  split at h
  · rename_i hmake
    cases h
    exact .directory hmake
  rename_i hmake
  split at h
  · rename_i hwrite
    cases h
    exact .file hmake hwrite
  · cases h

/-- **Writing is stopped by the first source that cannot be written.** -/
theorem exists_unwritable_of_writeAll {outputs : List (Source × String)}
    (h : (writeAll output v outputs).stop = some fault) :
    ∃ front s code, front ++ [(s, code)] <+: outputs ∧ (writeAll output v front).stop = none ∧
      Unwritable (writeAll output v front).volume (pathOfTarget output s.target) code
        (writeAll output v outputs).volume fault := by
  induction outputs generalizing v with
  | nil => cases h
  | cons first rest ih =>
    obtain ⟨s, code⟩ := first
    cases hwrite : writeSource v (pathOfTarget output s.target) code with
    | mk next stop =>
      cases stop with
      | some found =>
        -- nothing was written before this one
        rw [writeAll_cons_of_fault hwrite] at h ⊢
        cases h
        exact ⟨[], s, code, List.prefix_append [(s, code)] rest, rfl,
          unwritable_of_writeSource hwrite⟩
      | none =>
        rw [writeAll_cons_of_writeSource hwrite] at h ⊢
        obtain ⟨front, t, other, hprefix, hstop, hunwritable⟩ := ih h
        refine ⟨(s, code) :: front, t, other, List.cons_prefix_cons.2 ⟨rfl, hprefix⟩, ?_, ?_⟩
        · rw [writeAll_cons_of_writeSource hwrite]
          exact hstop
        · rw [writeAll_cons_of_writeSource hwrite]
          exact hunwritable

/-! ## Steps of paths -/

theorem isName_of_ofPart? {part : Name} (h : Path.Component.ofPart? part = some (.name name))
    (hslash : slash ∉ part) : IsName name := by
  obtain rfl := eq_of_ofPart?_name h
  unfold Path.Component.ofPart? at h
  split at h
  · cases h
  rename_i hstay
  split at h
  · cases h
  rename_i hup
  exact ⟨(not_or.1 hstay).1, (not_or.1 hstay).2, hup, hslash⟩

theorem ofPart?_ne_root (part : Name) : Path.Component.ofPart? part ≠ some .root := by
  unfold Path.Component.ofPart?
  split
  · nofun
  split <;> nofun

theorem isName_of_mem_components (h : .name name ∈ p.components) : IsName name := by
  have hkept : .name name ∈ p.components.filter (· ≠ .current) :=
    List.mem_filter.2 ⟨h, by simp⟩
  rw [filter_components, List.mem_append] at hkept
  rcases hkept with hroot | hkept
  · split at hroot <;> simp at hroot
  · obtain ⟨part, hpart, hname⟩ := List.mem_filterMap.1 hkept
    exact isName_of_ofPart? hname (not_mem_of_mem_splitOn hpart)

/-- Only the first step can go to the root directory. -/
theorem root_not_mem_tail (p : Path) : .root ∉ p.components.tail := by
  have hparts : ∀ parts : List Name, .root ∉ parts.filterMap Path.Component.ofPart? := by
    intro parts hmem
    obtain ⟨part, -, hpart⟩ := List.mem_filterMap.1 hmem
    exact ofPart?_ne_root part hpart
  unfold Path.components
  split
  · exact hparts _
  split
  · exact List.not_mem_nil
  split
  · exact hparts _
  · exact fun hmem => hparts _ (List.mem_of_mem_tail hmem)

/-- How a step is spelled. -/
def stepText : Path.Component → Name
  | .name name => name
  | .parent => [dot, dot]
  | .current => [dot]
  | .root => []

/-- A path is below a root if it takes the steps of the root, less the single dots, and then others.
These are spelled as they are. -/
theorem exists_rest_of_belowRoot (hcurrent : .current ∉ p.components)
    (h : belowRoot source p = .ok q) :
    ∃ rest, p.components = source.components.filter (· ≠ .current) ++ rest ∧
      q = .ofParts (rest.map stepText) := by
  -- the steps are spelled by a function that has no name there
  have hspelled : ∀ {spell : Path.Component → Name}, (∀ step, spell step = stepText step) →
      ∀ rest : List Path.Component, rest.map spell = rest.map stepText :=
    fun hspell rest => List.map_congr_left fun step _ => hspell step
  unfold belowRoot at h
  dsimp only at h
  split at h
  · rename_i rest hrest
    replace hrest := (List.append_eq_of_isPrefixOf?_eq_some hrest).symm
    cases h
    refine ⟨rest, ?_, congrArg Path.ofParts (hspelled (fun step => by cases step <;> rfl) rest)⟩
    -- the path has no single dot, and so neither has the root
    have hplain : source.components.filter (· ≠ .current) = source.components := by
      refine List.filter_eq_self.2 fun component hmem => decide_eq_true ?_
      rintro rfl
      exact hcurrent (by rw [hrest]; exact List.mem_append_left _ hmem)
    rw [hplain, hrest]
  split at h
  · rename_i rest hrest
    replace hrest := (List.append_eq_of_isPrefixOf?_eq_some hrest).symm
    cases h
    exact ⟨rest, hrest, congrArg Path.ofParts (hspelled (fun step => by cases step <;> rfl) rest)⟩
  · cases h

theorem filterMap_stepText (hcurrent : .current ∉ taken) (hroot : .root ∉ taken)
    (hnames : ∀ name, .name name ∈ taken → IsName name) :
    (taken.map stepText).filterMap Path.Component.ofPart? = taken := by
  induction taken with
  | nil => rfl
  | cons step rest ih =>
    obtain ⟨hstep, hrest⟩ := List.ne_and_not_mem_of_not_mem_cons hcurrent
    obtain ⟨hstep', hrest'⟩ := List.ne_and_not_mem_of_not_mem_cons hroot
    have hnext := ih hrest hrest' fun name hname => hnames name (List.mem_cons_of_mem _ hname)
    have hpart : Path.Component.ofPart? (stepText step) = some step := by
      cases step with
      | root => exact absurd rfl hstep'
      | current => exact absurd rfl hstep
      | parent => rfl
      | name name => exact ofPart?_of_isName (hnames name List.mem_cons_self)
    rw [List.map_cons, List.filterMap_cons, hpart, hnext]

/-- **Steps that are spelled are taken again**, if there are no single dots among them. The root
directory alone is spelled like nothing. -/
theorem components_stepText (hcurrent : .current ∉ taken) (hroot : .root ∉ taken.tail)
    (hnames : ∀ name, .name name ∈ taken → IsName name) (hne : taken ≠ [.root]) :
    (Path.ofParts (taken.map stepText)).components = taken := by
  cases taken with
  | nil => rfl
  | cons step rest =>
    rw [List.tail_cons] at hroot
    have hrest := filterMap_stepText (fun hmem => hcurrent (List.mem_cons_of_mem _ hmem)) hroot
      fun name hname => hnames name (List.mem_cons_of_mem _ hname)
    have hbytes : (Path.ofParts ((step :: rest).map stepText)).bytes
        = List.intercalate [slash] (stepText step :: rest.map stepText) := rfl
    have hslash : ∀ part ∈ stepText step :: rest.map stepText, slash ∉ part := by
      intro part hpart
      obtain ⟨other, hother, rfl⟩ := List.mem_map.1 (List.map_cons ▸ hpart)
      cases other with
      | name name => exact (hnames name hother).slash_not_mem
      | root | current | parent => decide
    rw [components_eq_stepsOf, Path.isAbsolute, Path.parts, hbytes,
      List.splitOn_intercalate slash hslash (List.cons_ne_nil _ _)]
    by_cases hstep : step = .root
    · subst hstep
      have hmore : rest ≠ [] := by
        rintro rfl
        exact hne rfl
      obtain ⟨next, more, rfl⟩ := List.exists_cons_of_ne_nil hmore
      exact congrArg (.root :: ·) hrest
    · have hfirst : stepText step ≠ [] ∧ stepText step ≠ [dot] := by
        cases step with
        | root => exact absurd rfl hstep
        | current => exact absurd List.mem_cons_self hcurrent
        | parent => decide
        | name name =>
          have hname := hnames name List.mem_cons_self
          exact ⟨hname.ne_nil, hname.ne_dot⟩
      have habsolute :
          (List.intercalate [slash] (stepText step :: rest.map stepText)).head? ≠ some slash := by
        rw [intercalate_cons, List.head?_append_of_ne_nil _ hfirst.1]
        exact fun hhead => hslash _ List.mem_cons_self (List.mem_of_mem_head? hhead)
      have hsteps := filterMap_stepText hcurrent
        (List.not_mem_cons_of_ne_of_not_mem (Ne.symm hstep) hroot) hnames
      rw [beq_eq_false_iff_ne.2 habsolute, stepsOf]
      simp only [Bool.false_eq_true, if_false, hfirst.2]
      exact hsteps

/-! ## The walk -/

/-- A path that is a single dot, or has none. -/
def Path.Undotted (p : Path) : Prop :=
  p.components = [.current] ∨ .current ∉ p.components

theorem Path.Undotted.front (h : p.Undotted) : .current ∉ p.front.components := by
  unfold Path.front
  split
  · exact List.not_mem_nil
  · rename_i hother
    exact h.resolve_left hother

theorem undotted_of_step {here next : Path} {part : Name} (hslash : slash ∉ part)
    (hhere : here.Undotted) (h : step v here part = some next) : next.Undotted := by
  have hnext : next = here.front.push part := by
    rw [step_eq hslash] at h
    split at h
    · split at h
      · exact (Option.some.inj h).symm
      · cases h
    split at h
    · exact (Option.some.inj h).symm
    · cases h
  rw [hnext]
  by_cases hdot : part = [dot]
  · subst hdot
    by_cases hempty : here.front.bytes = []
    · exact .inl (by rw [show here.front = ⟨[]⟩ from congrArg Path.mk hempty]; decide)
    · exact .inr (by rw [components_push_dot hempty]; exact hhere.front)
  · refine .inr ?_
    rw [components_push hslash hdot, List.mem_append, Option.mem_toList, not_or]
    exact ⟨hhere.front, ofPart?_ne_current part⟩

theorem undotted_of_steps {here base : Path} {parts : List PatternPart}
    (hslash : ∀ part ∈ parts, slash ∉ part.name) (hhere : here.Undotted)
    (h : steps v here parts = .ok (some base)) : base.Undotted := by
  induction parts generalizing here with
  | nil =>
    cases h
    exact hhere
  | cons part rest ih =>
    obtain ⟨hpart, hrest⟩ := List.forall_mem_cons.1 hslash
    rw [steps] at h
    split at h
    · cases h
    split at h
    · rename_i next hnext
      exact ih hrest (undotted_of_step hpart hhere hnext) h
    · cases h

theorem undotted_of_walk {base : Path} (h : walk v r.sought = .ok (some base)) :
    base.Undotted := by
  refine undotted_of_steps (fun part hpart => Pattern.slash_not_mem_of_mem_directory hpart) ?_ h
  split
  · exact .inr (by decide)
  · exact .inl (by decide)

/-- The path of a declaration has no single dot and ends in a name that is text. -/
theorem name_of_mem_declarationPaths (hv : v.WellFormed) (h : p ∈ r.declarationPaths v) :
    .current ∉ p.components ∧
      ∃ front name, p.components = front ++ [.name name] ∧ (ofUtf8? name).isSome := by
  obtain ⟨base, location, front, name, content, hbase, -, rfl, htext, -, hlookup⟩ :=
    exists_names_of_mem_declarationPaths hv h
  have hisName : ∀ other ∈ front ++ [name], IsName other := fun other hother =>
    hv.isName_of_lookup hlookup other (List.mem_append_right _ hother)
  rw [pushNames_eq_foldl, components_foldl_push hisName]
  refine ⟨?_, base.front.components ++ front.map .name, name, by simp, htext⟩
  rw [List.mem_append, not_or]
  exact ⟨(undotted_of_walk hbase).front, by simp⟩

/-! ## Declarations and their targets -/

theorem names_of_directoryNames {segments : List String} (hcurrent : .current ∉ taken)
    (h : directoryNames taken = some segments) :
    ∃ names : List Name, (∀ name ∈ names, (ofUtf8? name).isSome) ∧ taken = names.map .name := by
  fun_induction directoryNames taken generalizing segments with
  | case1 => exact ⟨[], by simp, rfl⟩
  | case2 => exact absurd List.mem_cons_self hcurrent
  | case3 name rest segment segments hsegments hsegment ih =>
    obtain ⟨names, htext, rfl⟩ := ih (fun hmem => hcurrent (List.mem_cons_of_mem _ hmem)) hsegments
    exact ⟨name :: names, List.forall_mem_cons.2 ⟨by rw [hsegment]; rfl, htext⟩, rfl⟩
  | case4 | case5 | case6 => cases h

/-- A path that gives a target takes steps by names only, and those of directories are text. -/
theorem names_of_targetOfPath {target : String} (hcurrent : .current ∉ q.components)
    (h : targetOfPath q = .ok target) :
    ∃ (front : List Name) (last : Name), (∀ name ∈ front, (ofUtf8? name).isSome) ∧
      q.components = (front ++ [last]).map .name := by
  unfold targetOfPath at h
  split at h
  · rename_i stem segments hstem hsegments
    obtain ⟨bytes, hbytes, -⟩ := Option.bind_eq_some_iff.1 hstem
    obtain ⟨last, hlast, -⟩ := Option.map_eq_some_iff.1 hbytes
    unfold Path.fileName? at hlast
    split at hlast
    · rename_i hend
      cases hlast
      obtain ⟨front, htext, hfront⟩ := names_of_directoryNames
        (fun hmem => hcurrent (List.dropLast_subset _ hmem)) hsegments
      refine ⟨front, last, htext, ?_⟩
      rw [List.map_append, ← hfront]
      exact (List.dropLast_append_getLast? _ hend).symm
    · cases hlast
  · cases h

/-- **The path goes on from the source root by names that are text.** A single dot in front of the
root is left out. -/
def Nameable (source p : Path) : Prop :=
  ∃ names : List Name, names ≠ [] ∧ (∀ name ∈ names, (ofUtf8? name).isSome) ∧
    p.components = source.components.filter (· ≠ .current) ++ names.map .name

theorem nameable_of_sourceAt (hv : v.WellFormed) (hp : p ∈ r.declarationPaths v) {s : Source}
    (h : r.sourceAt p = .ok s) : Nameable r.source p := by
  obtain ⟨hcurrent, start, name, hend, htext⟩ := name_of_mem_declarationPaths hv hp
  obtain ⟨q, hbelow, htarget, -⟩ := sourceAt_eq_ok_iff.1 h
  obtain ⟨rest, hrest, rfl⟩ := exists_rest_of_belowRoot hcurrent hbelow
  have hsub : ∀ step ∈ rest, step ∈ p.components := by
    intro step hstep
    rw [hrest]
    exact List.mem_append_right _ hstep
  have hroot : rest ≠ [.root] := by
    rintro rfl
    cases htarget
  have hcomponents : (Path.ofParts (rest.map stepText)).components = rest := by
    refine components_stepText (fun hmem => hcurrent (hsub _ hmem)) ?_
      (fun name hname => isName_of_mem_components (hsub _ hname)) hroot
    intro hmem
    apply root_not_mem_tail p
    rw [hrest]
    cases r.source.components.filter (· ≠ .current) with
    | nil => exact hmem
    | cons first front => exact List.mem_append_right _ (List.mem_of_mem_tail hmem)
  obtain ⟨front, last, hfront, hsteps⟩ := names_of_targetOfPath
    (by rw [hcomponents]; exact fun hmem => hcurrent (hsub _ hmem)) htarget
  rw [hcomponents] at hsteps
  subst hsteps
  -- what the target says of the directories, the search says of the file
  have hlast : last = name := by
    have hends := congrArg List.getLast? (hrest.symm.trans hend)
    simpa using hends
  refine ⟨front ++ [last], by simp, ?_, hrest⟩
  rw [List.forall_mem_append]
  exact ⟨hfront, by simpa [hlast] using htext⟩

/-- **A declaration has a target exactly if its path goes on from the source root by names that are
text.** -/
theorem exists_sourceAt_iff (hv : v.WellFormed) (hp : p ∈ r.declarationPaths v) :
    (∃ s, r.sourceAt p = .ok s) ↔ Nameable r.source p := by
  constructor
  · rintro ⟨s, hs⟩
    exact nameable_of_sourceAt hv hp hs
  · rintro ⟨names, hne, htext, hcomponents⟩
    have hisName : ∀ name ∈ names, IsName name := by
      intro name hname
      refine isName_of_mem_components (p := p) ?_
      rw [hcomponents]
      exact List.mem_append_right _ (List.mem_map_of_mem hname)
    obtain ⟨target, htarget⟩ := exists_targetOfPath hne hisName htext
    exact ⟨⟨target, p⟩,
      sourceAt_eq_ok_iff.2 ⟨_, belowRoot_of_components hcomponents, htarget, rfl⟩⟩

theorem nameable_iff_of_leadsBelow {root : Location} (h : LeadsBelow v source root names p)
    (hne : names ≠ []) : Nameable source p ↔ ∀ name ∈ names, (ofUtf8? name).isSome := by
  constructor
  · rintro ⟨others, -, htext, hothers⟩
    have hmap := List.append_cancel_left (h.1.symm.trans hothers)
    rwa [List.map_injective_iff.2 (fun _ _ heq => Path.Component.name.inj heq) hmap]
  · exact fun htext => ⟨names, hne, htext, h.1⟩

/-- Every declaration below a location is in directories whose names are text. A file whose own name
is not text is no declaration. -/
def Volume.NamesDeclarations (v : Volume) (root : Location) : Prop :=
  ∀ front name, v.Declares root (front ++ [name]) → (ofUtf8? name).isSome →
    ∀ directory ∈ front, (ofUtf8? directory).isSome

/-- What was found is a path, and has a property if it leads to a file. -/
def Volume.Admits (v : Volume) (P : Path → Prop) : Except Path Path → Prop
  | .ok p => v.isFile p = true → P p
  | .error _ => False

theorem forall_admits_iff {P : Path → Prop} {found : List (Except Path Path)} :
    (∀ item ∈ found, v.Admits P item) ↔
      (∀ q, .error q ∉ found) ∧ ∀ p ∈ filesAmong v found, P p := by
  induction found with
  | nil => exact iff_of_true (List.forall_mem_nil _) ⟨nofun, List.forall_mem_nil _⟩
  | cons item rest ih =>
    rw [List.forall_mem_cons, ih]
    cases item with
    | error q => exact iff_of_false (fun h => h.1) fun h => h.1 q List.mem_cons_self
    | ok p =>
      have hlisted : (∀ q, Except.error q ∉ .ok p :: rest) ↔ ∀ q, .error q ∉ rest := by simp
      rw [hlisted, Volume.Admits, and_left_comm]
      by_cases hfile : v.isFile p = true
      · rw [filesAmong_cons_of_isFile hfile, List.forall_mem_cons, imp_iff_right hfile]
      · rw [filesAmong_cons_of_not_isFile hfile]
        exact and_congr_right fun _ => and_iff_right fun htrue => absurd htrue hfile

/-- **Below a root that a search understands, it matters whether all directories can be listed, and
what the names of those are that hold declarations.** -/
theorem forall_admits_sought_iff {root : Location} (hv : v.WellFormed)
    (hsearchable : r.source.Searchable) (hroot : v.resolve r.source = .ok root) :
    (∀ item ∈ v.search r.sought, v.Admits (Nameable r.source) item) ↔
      v.Listable r.source ∧ v.NamesDeclarations root := by
  have hcontract := search_sought hv hsearchable hroot
  by_cases hlistable : v.Listable r.source
  · rw [and_iff_right hlistable]
    obtain ⟨entries, -, hmem, hentries⟩ := hcontract.listed hlistable
    have hfile : ∀ {names p}, LeadsBelow v r.source root names p →
        (v.isFile p = true ↔ ∃ content, v.lookup (root ++ names) = some (.file content)) :=
      fun hp => by rw [isFile_of_resolve hp.2, isFileAt_iff]
    constructor
    · rintro h front name ⟨⟨content, hlookup⟩, start, last, hends, hending⟩ htext
      obtain ⟨rfl, hlast⟩ := List.append_inj' hends rfl
      cases hlast
      have hentry := (hmem _).2 ⟨⟨_, hlookup⟩, front, name, rfl, htext, hending⟩
      obtain ⟨item, hitem, p, rfl, hp⟩ := exists_mem_right_of_forall₂ hentries hentry
      have hnameable := h _ hitem ((hfile hp).2 ⟨content, hlookup⟩)
      have hall := (nameable_iff_of_leadsBelow hp (by simp)).1 hnameable
      exact fun directory hdirectory => hall directory (List.mem_append_left _ hdirectory)
    · intro h item hitem
      obtain ⟨names, hnames, p, rfl, hp⟩ := exists_mem_right_of_forall₂ hentries.flip hitem
      intro hisFile
      obtain ⟨-, front, name, rfl, htext, hending⟩ := (hmem _).1 hnames
      obtain ⟨content, hlookup⟩ := (hfile hp).1 hisFile
      refine (nameable_iff_of_leadsBelow hp (by simp)).2 ?_
      have hfront := h front name ⟨⟨content, hlookup⟩, front, name, rfl, hending⟩ htext
      exact List.forall_mem_append.2 ⟨hfront, by simpa using htext⟩
  · obtain ⟨q, hq⟩ := hcontract.unlisted hlistable
    exact iff_of_false (fun h => h _ hq) fun h => hlistable h.1

/-! ## Finding declarations -/

/-- A declaration without a target is named in the fault, by its path or from the source root. -/
theorem exists_noTarget_of_sourceAt (h : r.sourceAt p = .error fault) :
    ∃ q, fault = .noTarget q ∧ (q = p ∨ belowRoot r.source p = .ok q) := by
  unfold Roots.sourceAt at h
  split at h
  · rename_i hbelow
    cases h
    refine ⟨p, ?_, .inl rfl⟩
    unfold belowRoot at hbelow
    dsimp only at hbelow
    split at hbelow
    · cases hbelow
    split at hbelow
    · cases hbelow
    · exact (Except.error.inj hbelow).symm
  rename_i relative hrelative
  split at h
  · rename_i htarget
    cases h
    refine ⟨relative, ?_, .inr hrelative⟩
    unfold targetOfPath at htarget
    split at htarget
    · cases htarget
    · exact (Except.error.inj htarget).symm
  · cases h

/-- **What keeps declarations from being found**: a directory that cannot be listed, or a file that
cannot be named from the source root. -/
inductive Roots.Unusable (r : Roots) (v : Volume) : Except Path Path → ProjectFault → Prop
  | directory (p : Path) : r.Unusable v (.error p) (.io p .accessDenied)
  | file {p q : Path} (hfile : v.isFile p = true) (hp : ¬Nameable r.source p)
      (hq : q = p ∨ belowRoot r.source p = .ok q) : r.Unusable v (.ok p) (.noTarget q)

/-- **Finding declarations is stopped by the first of what was found that cannot be used.** -/
theorem exists_unusable_of_sourcesAmong {found : List (Except Path Path)}
    (hfiles : ∀ p ∈ filesAmong v found, (∃ s, r.sourceAt p = .ok s) ↔ Nameable r.source p)
    (h : r.sourcesAmong v found = .error fault) :
    ∃ front item, front ++ [item] <+: found ∧
      (∀ other ∈ front, v.Admits (Nameable r.source) other) ∧ r.Unusable v item fault := by
  induction found with
  | nil => cases h
  | cons item rest ih =>
    cases item with
    | error p =>
      cases h
      exact ⟨[], .error p, List.prefix_append [_] rest, List.forall_mem_nil _, .directory p⟩
    | ok p =>
      -- the others are stopped by what stops the rest, as long as this one can be used
      have hnext (hrest : r.sourcesAmong v rest = .error fault)
          (hadmits : v.isFile p = true → Nameable r.source p)
          (hothers : ∀ q ∈ filesAmong v rest, (∃ s, r.sourceAt q = .ok s) ↔ Nameable r.source q) :
          ∃ front item, front ++ [item] <+: .ok p :: rest ∧
            (∀ other ∈ front, v.Admits (Nameable r.source) other) ∧ r.Unusable v item fault := by
        obtain ⟨front, item, hprefix, hfront, hitem⟩ := ih hothers hrest
        exact ⟨.ok p :: front, item, List.cons_prefix_cons.2 ⟨rfl, hprefix⟩,
          List.forall_mem_cons.2 ⟨hadmits, hfront⟩, hitem⟩
      rw [Roots.sourcesAmong] at h
      by_cases hfile : v.isFile p = true
      · rw [filesAmong_cons_of_isFile hfile, List.forall_mem_cons] at hfiles
        rw [if_neg (by simp [hfile])] at h
        split at h
        · rename_i hp
          cases h
          obtain ⟨q, rfl, hq⟩ := exists_noTarget_of_sourceAt hp
          refine ⟨[], .ok p, List.prefix_append [_] rest, List.forall_mem_nil _,
            .file hfile (fun hnameable => ?_) hq⟩
          obtain ⟨s, hs⟩ := hfiles.1.2 hnameable
          cases hs.symm.trans hp
        rename_i s hs
        split at h
        · rename_i hrest
          cases h
          exact hnext hrest (fun _ => hfiles.1.1 ⟨s, hs⟩) hfiles.2
        · cases h
      · rw [filesAmong_cons_of_not_isFile hfile] at hfiles
        rw [if_pos (by simp [hfile])] at h
        exact hnext h (fun htrue => absurd htrue hfile) hfiles

theorem declarations_eq_error_iff (htext : r.source.text?.isSome) :
    r.declarations v = .error fault ↔ r.sourcesAmong v (v.search r.sought) = .error fault := by
  unfold Roots.declarations
  rw [Option.isNone_eq_false_iff.2 htext, if_neg Bool.false_ne_true, read?_pattern]
  dsimp only
  constructor
  · intro h
    split at h
    · rename_i hsources
      cases h
      exact hsources
    · cases h
  · intro h
    rw [h]

/-- **Declarations are found if all directories could be listed and all files have a target.** -/
theorem exists_declarations_iff (hv : v.WellFormed) (htext : r.source.text?.isSome) :
    (∃ sources, r.declarations v = .ok sources) ↔
      ∀ item ∈ v.search r.sought, v.Admits (Nameable r.source) item := by
  rw [forall_admits_iff]
  constructor
  · rintro ⟨sources, hsources⟩
    obtain ⟨-, found, hfound, -⟩ := declarations_eq_ok_iff.1 hsources
    obtain ⟨hlisted, hpaths⟩ := sourcesAmong_eq_ok_iff.1 hfound
    have hall := forall_mem_right_of_forall₂ (P := fun p => ∃ s, r.sourceAt p = .ok s) hpaths.flip
      fun s _ p hs => ⟨s, hs⟩
    exact ⟨hlisted, fun p hp => (exists_sourceAt_iff hv hp).1 (hall p hp)⟩
  · rintro ⟨hlisted, h⟩
    obtain ⟨found, hfound⟩ := exists_forall₂ fun p hp => (exists_sourceAt_iff hv hp).2 (h p hp)
    exact ⟨_, declarations_eq_ok_iff.2
      ⟨htext, found, sourcesAmong_eq_ok_iff.2 ⟨hlisted, hfound⟩, rfl⟩⟩

/-- What is found is all that there is. -/
theorem perm_of_declarations {sources : List Source} (h : r.declarations v = .ok sources) :
    (sources.map (·.path)).Perm (r.declarationPaths v) := by
  obtain ⟨-, found, hfound, rfl⟩ := declarations_eq_ok_iff.1 h
  have hpaths : List.Forall₂ (fun p (s : Source) => p = s.path) (r.declarationPaths v) found :=
    (sourcesAmong_eq_ok_iff.1 hfound).2.imp fun p s hs =>
      (sourceAt_eq_ok_iff.1 hs).elim fun _ hs => hs.2.2.symm
  rw [← List.forall₂_map_right_iff (R := (· = ·)), List.forall₂_eq_eq_eq] at hpaths
  rw [hpaths]
  exact (List.mergeSort_perm found _).map _

/-! ## What stops a generation -/

/-- **A generation found its declarations and was stopped by the first source that it could not
write.** All before this one are written. -/
def Roots.StoppedWriting (r : Roots) (v after : Volume) (fault : ProjectFault) : Prop :=
  ∃ sources front s code, r.declarations v = .ok sources ∧
    front ++ [(s, code)] <+: successes (renderedFrom v sources) ∧
    (writeAll r.output v front).stop = none ∧
    Unwritable (writeAll r.output v front).volume (pathOfTarget r.output s.target) code after fault

theorem generate_of_fault (h : r.declarations v = .error fault) (policy : OnFailure) :
    r.generate policy v = ⟨v, .error fault⟩ := by
  obtain ⟨found, hfound, hgenerate⟩ | ⟨sources, hsources, -⟩ := generate_cases r policy v
  · cases h.symm.trans hfound
    exact hgenerate
  · cases h.symm.trans hsources

/-- A generation that finds its declarations is stopped by nothing but writing. -/
theorem stoppedWriting_of_declarations {sources : List Source}
    (hsources : r.declarations v = .ok sources)
    (h : (r.generate policy v).result = .error fault) :
    r.StoppedWriting v (r.generate policy v).volume fault := by
  obtain ⟨found, hfound, -⟩ | ⟨found, hfound, hcases⟩ := generate_cases r policy v
  · cases hsources.symm.trans hfound
  cases hsources.symm.trans hfound
  obtain ⟨-, hgenerate⟩ | ⟨-, ⟨stop, hstop, hgenerate⟩ | ⟨-, hgenerate⟩⟩ := hcases
  · rw [hgenerate] at h
    cases h
  · rw [hgenerate] at h ⊢
    cases h
    obtain ⟨front, s, code, hprefix, hfront, hunwritable⟩ := exists_unwritable_of_writeAll hstop
    exact ⟨sources, front, s, code, hsources, hprefix, hfront, hunwritable⟩
  · rw [hgenerate] at h
    cases h

/-- A generation that does not find its declarations stops at the first of what was found that
cannot be used, and changes nothing. -/
theorem exists_unusable_of_generate (hv : v.WellFormed) (htext : r.source.text?.isSome)
    (policy : OnFailure)
    (h : ¬∀ item ∈ v.search r.sought, v.Admits (Nameable r.source) item) :
    ∃ front item fault, front ++ [item] <+: v.search r.sought ∧
      (∀ other ∈ front, v.Admits (Nameable r.source) other) ∧ r.Unusable v item fault ∧
      r.generate policy v = ⟨v, .error fault⟩ := by
  cases hfault : r.declarations v with
  | ok sources => exact absurd ((exists_declarations_iff hv htext).1 ⟨sources, hfault⟩) h
  | error fault =>
    have hsources := (declarations_eq_error_iff htext).1 hfault
    obtain ⟨front, item, hprefix, hfront, hitem⟩ :=
      exists_unusable_of_sourcesAmong (fun p hp => exists_sourceAt_iff hv hp) hsources
    exact ⟨front, item, fault, hprefix, hfront, hitem, generate_of_fault hfault policy⟩

/-- **A generation is stopped by nothing but writing exactly if all that is found below the source
root can be used**: all directories could be listed, and all declarations have a target. Below a
root that a search understands this depends on which directories can be listed, and on the names of
those that hold declarations. If something cannot be used the first such is all that is reported,
and nothing is written. Otherwise what fails in one declaration is reported with the others, and
under `writeOthers` all others are written. -/
theorem stopped_by_writing_iff (hv : v.WellFormed) (htext : r.source.text?.isSome)
    (policy : OnFailure) :
    ((∀ fault, (r.generate policy v).result = .error fault →
        r.StoppedWriting v (r.generate policy v).volume fault) ↔
      ∀ item ∈ v.search r.sought, v.Admits (Nameable r.source) item) ∧
    (∀ root, r.source.Searchable → v.resolve r.source = .ok root →
      ((∀ item ∈ v.search r.sought, v.Admits (Nameable r.source) item) ↔
        v.Listable r.source ∧ v.NamesDeclarations root)) ∧
    ((¬∀ item ∈ v.search r.sought, v.Admits (Nameable r.source) item) →
      ∃ front item fault, front ++ [item] <+: v.search r.sought ∧
        (∀ other ∈ front, v.Admits (Nameable r.source) other) ∧ r.Unusable v item fault ∧
        r.generate policy v = ⟨v, .error fault⟩) ∧
    ∀ result, (r.generate policy v).result = .ok result →
      ∃ sources, r.declarations v = .ok sources ∧
        (sources.map (·.path)).Perm (r.declarationPaths v) ∧
        (∀ fault, fault ∈ result.failures ↔ ∃ s ∈ sources, s.code v = .error fault) ∧
        (policy = .writeOthers →
          result.written = (renderedTargets v sources).map (pathOfTarget r.output)) := by
  refine ⟨⟨fun h => ?_, fun h fault hfault => ?_⟩,
    fun root hsearchable hroot => forall_admits_sought_iff hv hsearchable hroot,
    exists_unusable_of_generate hv htext policy, fun result hresult => ?_⟩
  · -- what stops writing comes after the declarations have been found
    rw [← exists_declarations_iff hv htext]
    cases hfault : r.declarations v with
    | ok sources => exact ⟨sources, rfl⟩
    | error fault =>
      have hgenerate := congrArg Generation.result (generate_of_fault hfault policy)
      obtain ⟨sources, -, -, -, hsources, -⟩ := h fault hgenerate
      cases hfault.symm.trans hsources
  · obtain ⟨sources, hsources⟩ := (exists_declarations_iff hv htext).2 h
    exact stoppedWriting_of_declarations hsources hfault
  · obtain ⟨sources, hsources, hfailures, hwritten⟩ := result_of_generate hresult
    refine ⟨sources, hsources, perm_of_declarations hsources, fun fault => ?_, ?_⟩
    · rw [hfailures, mem_failures_iff]
    · rintro rfl
      obtain ⟨hwithholds, -⟩ | ⟨-, hwritten⟩ := hwritten
      · exact absurd hwithholds (not_withholds_writeOthers v sources)
      · exact hwritten

/-- Where a directory is in the way of the first source, a generation that would have left out the
declaration that fails is stopped; one that withholds the sources reports it. -/
theorem stopped_by_writing_iff_directory :
    let v : Volume := ⟨[([utf8 "o"], .directory), ([utf8 "o", utf8 "A.java"], .directory),
      ([utf8 "s"], .directory), ([utf8 "s", utf8 "A.scroole"], .file []),
      ([utf8 "s", utf8 "B.scroole"], .file (utf8 "x"))], [], []⟩
    let r : Roots := ⟨.ofString "s", .ofString "o"⟩
    let stop : ProjectFault := .io (.ofString "o/A.java") .isADirectory
    v.WellFormed ∧ r.source.text?.isSome ∧ r.source.Searchable ∧
      v.resolve r.source = .ok [utf8 "s"] ∧ v.Listable r.source ∧ v.NamesDeclarations [utf8 "s"] ∧
      (r.generate .writeOthers v).result = .error stop ∧
      r.StoppedWriting v (r.generate .writeOthers v).volume stop ∧
      ∃ result, (r.generate .writeNothing v).result = .ok result ∧
        .declaration "B" (.field 1 "x") ∈ result.failures := by
  intro v r stop
  let a : Source := ⟨"A", .ofString "s/A.scroole"⟩
  let b : Source := ⟨"B", .ofString "s/B.scroole"⟩
  let code := (Java.CompilationUnit.ofTypes ⟨"", "A", "", []⟩ []).text
  have hv : v.WellFormed :=
    ⟨by decide +kernel, by decide +kernel, by decide +kernel, by decide +kernel⟩
  have htext : r.source.text?.isSome := by decide +kernel
  have hsearchable : r.source.Searchable := ⟨by decide +kernel, fun _ => by decide +kernel⟩
  have hroot : v.resolve r.source = .ok [utf8 "s"] := by decide +kernel
  have hwalk : walk v r.sought = .ok (some r.source) := by decide +kernel
  have hsources : r.declarations v = .ok [a, b] :=
    declarations_of_sorted htext hwalk hroot (by decide +kernel) (by decide +kernel)
      (by decide +kernel)
  have ha : a.code v = .ok code := code_of_empty (by decide +kernel) (by decide +kernel)
  have hb : b.code v = .error (.declaration "B" (.field 1 "x")) := by decide +kernel
  have hsuccesses : successes (renderedFrom v [a, b]) = [(a, code)] := by
    simp only [renderedFrom, List.map_cons, List.map_nil, ha, hb]
    rfl
  have hwrite : writeSource v (pathOfTarget r.output a.target) code = (v, some stop) := by
    decide +kernel
  have hgenerate : (r.generate .writeOthers v).result = .error stop := by
    obtain ⟨fault, hfault, -⟩ | ⟨found, hfound, hcases⟩ := generate_cases r .writeOthers v
    · cases hsources.symm.trans hfault
    cases hsources.symm.trans hfound
    dsimp only at hcases
    rw [hsuccesses, writeAll_cons_of_fault hwrite] at hcases
    obtain ⟨hwithholds, -⟩ | ⟨-, ⟨fault, hfault, hgenerate⟩ | ⟨hnone, -⟩⟩ := hcases
    · exact absurd hwithholds (not_withholds_writeOthers v [a, b])
    · cases hfault
      exact congrArg Generation.result hgenerate
    · cases hnone
  have hwithholds : OnFailure.writeNothing.Withholds v [a, b] :=
    ⟨rfl, b, by simp, by rw [Source.renders, hb]; rfl⟩
  have hwithheld := congrArg Generation.result (generate_of_withholds hsources hwithholds)
  have hadmits := (exists_declarations_iff hv htext).1 ⟨_, hsources⟩
  obtain ⟨hothers, hplain, -, -⟩ := stopped_by_writing_iff hv htext .writeOthers
  obtain ⟨-, -, -, hreport⟩ := stopped_by_writing_iff hv htext .writeNothing
  obtain ⟨hlistable, hnames⟩ := (hplain _ hsearchable hroot).1 hadmits
  obtain ⟨found, hfound, -, hfailures, -⟩ := hreport _ hwithheld
  cases hsources.symm.trans hfound
  exact ⟨hv, htext, hsearchable, hroot, hlistable, hnames, hgenerate,
    hothers.2 hadmits stop hgenerate, _, hwithheld, (hfailures _).2 ⟨b, by simp, hb⟩⟩

/-- A declaration that is below a directory whose name is not text stops a generation before the
other, which could be written, and so does a directory that cannot be listed. A declaration that is
not below the source root does too, and is found all the same since the root ends in a backslash. -/
theorem stopped_by_finding :
    let v : Volume := ⟨[([utf8 "s"], .directory), ([utf8 "s", utf8 "A.scroole"], .file []),
      ([utf8 "s", [0xff]], .directory), ([utf8 "s", [0xff], utf8 "B.scroole"], .file [])], [], []⟩
    let closed : Volume := { v with closed := [[utf8 "s", [0xff]]] }
    let r : Roots := ⟨.ofString "s", .ofString "o"⟩
    let w : Volume := ⟨[([utf8 "a"], .directory), ([utf8 "a", utf8 "A.scroole"], .file []),
      ([utf8 "a\\"], .directory)], [], []⟩
    let backslash : Roots := ⟨.ofString "a\\", .ofString "o"⟩
    (v.WellFormed ∧ r.source.text?.isSome ∧ Roots.toGenerate v r.source r.output = .ok r ∧
      (∃ s code, r.sourceAt (.ofString "s/A.scroole") = .ok s ∧ s.code v = .ok code) ∧
      ∀ policy, r.generate policy v =
        ⟨v, .error (.noTarget ⟨0xff :: utf8 "/B.scroole"⟩)⟩) ∧
    (closed.WellFormed ∧ Roots.toGenerate closed r.source r.output = .ok r ∧
      ∀ policy, r.generate policy closed =
        ⟨closed, .error (.io ⟨utf8 "s/" ++ [0xff]⟩ .accessDenied)⟩) ∧
    w.WellFormed ∧ backslash.source.text?.isSome ∧
      Roots.toGenerate w backslash.source backslash.output = .ok backslash ∧
      ∀ policy, backslash.generate policy w =
        ⟨w, .error (.noTarget (.ofString "a/A.scroole"))⟩ := by
  intro v closed r w backslash
  let a : Source := ⟨"A", .ofString "s/A.scroole"⟩
  have hsource : r.sourceAt (.ofString "s/A.scroole") = .ok a := by decide +kernel
  have ha := code_of_empty (v := v) (s := a) (by decide +kernel)
    (show readTarget a.target = .ok ("", "A") by decide +kernel)
  have htext : r.source.text?.isSome := by decide +kernel
  have hbackslash : backslash.source.text?.isSome := by decide +kernel
  have hv : r.declarations v = .error (.noTarget ⟨0xff :: utf8 "/B.scroole"⟩) := by
    rw [declarations_eq_error_iff htext, search_of_sorted (.ofString "s") [utf8 "s"]
      (by decide +kernel) (by decide +kernel) (by decide +kernel)]
    decide +kernel
  have hclosed : r.declarations closed = .error (.io ⟨utf8 "s/" ++ [0xff]⟩ .accessDenied) := by
    rw [declarations_eq_error_iff htext, search_of_sorted (.ofString "s") [utf8 "s"]
      (by decide +kernel) (by decide +kernel) (by decide +kernel)]
    decide +kernel
  have hw : backslash.declarations w = .error (.noTarget (.ofString "a/A.scroole")) := by
    rw [declarations_eq_error_iff hbackslash, search_of_sorted (.ofString "a") [utf8 "a"]
      (by decide +kernel) (by decide +kernel) (by decide +kernel)]
    decide +kernel
  refine ⟨⟨⟨by decide +kernel, by decide +kernel, by decide +kernel, by decide +kernel⟩, htext,
      by decide +kernel, ⟨a, _, hsource, ha⟩, generate_of_fault hv⟩,
    ⟨⟨by decide +kernel, by decide +kernel, by decide +kernel, by decide +kernel⟩,
      by decide +kernel, generate_of_fault hclosed⟩,
    ⟨by decide +kernel, by decide +kernel, by decide +kernel, by decide +kernel⟩, hbackslash,
    by decide +kernel, generate_of_fault hw⟩

end ValueClass
