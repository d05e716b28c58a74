import ValueClass.Proofs.Search

/-!
# Generating once more

A generation that comes to its end has done all there is to do. The sources it wrote are no
declarations, wherever the output root is, so the next one finds what the first one found, and finds
every directory made and every file in its place. Where two declarations have the same target, the
file changes on the way and ends as it was.

* `declarationPaths_of_rewritten`: the same declarations are found as long as none has changed.
* `Volume.Settled`: a path to a file that can be written without making directories.
* `writeAll_again`: **writing the same sources once more changes nothing.**
* `generate_again`: **neither does generating once more**, and it reports the same.
-/

namespace ValueClass

open Text

variable {r : Roots} {policy : OnFailure} {v w after last : Volume} {p output : Path}
  {location : Location} {name : Name} {changed : List Location} {s : Source} {code : String}
  {outputs : List (Source × String)}

/-! ## Locations that are listed -/

/-- What is put where something is takes its place. -/
theorem map_fst_put (hroot : location ≠ []) {old : Entry} (h : v.lookup location = some old)
    (entry : Entry) : (v.put location entry).entries.map (·.1) = v.entries.map (·.1) :=
  map_fst_putEntry_of_mem (List.mem_map_of_mem (f := (·.1)) (mem_entries_of_lookup hroot h)) entry

theorem eq_of_lookup_entries {as bs : List (Location × Entry)}
    (hlocations : as.map (·.1) = bs.map (·.1)) (hdistinct : (bs.map (·.1)).Nodup)
    (h : ∀ l ∈ bs.map (·.1), as.lookup l = bs.lookup l) : as = bs := by
  induction as generalizing bs with
  | nil => exact (List.map_eq_nil_iff.1 hlocations.symm).symm
  | cons a as ih =>
    cases bs with
    | nil => cases hlocations
    | cons b bs =>
      obtain ⟨hfirst, hrest⟩ : a.1 = b.1 ∧ as.map (·.1) = bs.map (·.1) :=
        List.cons.inj hlocations
      obtain ⟨hnew, hdistinct⟩ := List.nodup_cons.1 hdistinct
      have hentry := h b.1 List.mem_cons_self
      rw [lookup_cons_eq_ite, lookup_cons_eq_ite, if_pos hfirst.symm, if_pos rfl] at hentry
      rw [Prod.ext hfirst (Option.some.inj hentry), ih hrest hdistinct fun l hl => ?_]
      -- further on, the first location is not listed again
      have hne : l ≠ b.1 := by
        rintro rfl
        exact hnew hl
      have hother : l ≠ a.1 := fun heq => hne (heq.trans hfirst)
      have hlater := h l (List.mem_cons_of_mem _ hl)
      rwa [lookup_cons_eq_ite, lookup_cons_eq_ite, if_neg hother, if_neg hne] at hlater

/-- Volumes that list the same locations, with the same at each of them, are the same. -/
theorem eq_of_lookup (hv : v.Distinct) (hlocations : w.entries.map (·.1) = v.entries.map (·.1))
    (hworking : w.working = v.working) (hclosed : w.closed = v.closed)
    (h : ∀ l, w.lookup l = v.lookup l) : w = v := by
  obtain ⟨hroot, hdistinct⟩ := List.nodup_cons.1 hv
  have hentries : w.entries = v.entries := by
    refine eq_of_lookup_entries hlocations hdistinct fun l hl => ?_
    have hne : l ≠ [] := by
      rintro rfl
      exact hroot hl
    have hsame := h l
    rwa [Volume.lookup, Volume.lookup, if_neg hne, if_neg hne] at hsame
  cases w
  cases v
  cases hentries
  cases hworking
  cases hclosed
  rfl

/-! ## Directories that are there -/

/-- Where parts lead somewhere, the place that the last of them names is taken. -/
theorem place_of_follow {start found : Location} {parts : List Name}
    (hstart : v.lookup start = some .directory) (h : v.follow start parts = .ok found) :
    ∃ directory name, v.place start parts = .ok (directory, name) ∧
      (name = [] ∨ ∃ entry, v.lookup (directory ++ [name]) = some entry) := by
  rcases List.eq_nil_or_concat' parts with rfl | ⟨front, name, rfl⟩
  · refine ⟨start, [], ?_, .inl rfl⟩
    simp [Volume.place, Volume.follow, hstart]
  obtain ⟨directory, hfront, hname⟩ := follow_append_eq_ok h
  have hdirectory := directory_of_follow (List.cons_ne_nil _ _) hname
  unfold Volume.place
  rw [List.dropLast_concat, hfront]
  dsimp only
  rw [if_neg (not_not.2 hdirectory), List.getLast?_concat]
  rw [Volume.follow, if_neg (not_not.2 hdirectory)] at hname
  by_cases hdots : name = [dot] ∨ name = [dot, dot]
  · exact ⟨directory, [], by simp [hdots], .inl rfl⟩
  · obtain ⟨hdot, hup⟩ := not_or.1 hdots
    refine ⟨directory, name, by simp [hdots], ?_⟩
    by_cases hempty : name = []
    · exact .inl hempty
    rw [if_neg (not_or.2 ⟨hempty, hdot⟩), if_neg hup] at hname
    cases hlookup : v.lookup (directory ++ [name]) with
    | none =>
      rw [hlookup] at hname
      cases hname
    | some entry => exact .inr ⟨entry, rfl⟩

/-- A directory that is there is not made again. -/
theorem makeDirectory_of_isDirectory (h : v.isDirectory p = true) :
    v.makeDirectory p = .error .alreadyExists := by
  obtain ⟨location, hresolve, -⟩ := isDirectory_iff.1 h
  obtain ⟨hbytes, hfollow⟩ := resolve_eq_ok_iff.1 hresolve
  have hstart := directory_of_follow (parts_ne_nil p) hfollow
  -- the empty parts at the end lead nowhere else
  obtain ⟨ends, hsplit, -⟩ := exists_end_eq List.isEmpty p.parts
  rw [hsplit] at hfollow
  obtain ⟨named, hnamed, -⟩ := follow_append_eq_ok hfollow
  obtain ⟨directory, name, hplace, htaken⟩ := place_of_follow hstart hnamed
  unfold Volume.makeDirectory
  rw [if_neg hbytes]
  dsimp only
  rw [hplace]
  dsimp only
  rcases htaken with hempty | ⟨entry, hentry⟩
  · rw [if_pos hempty]
  · rw [hentry]
    exact ite_self _

/-- The first of the directories is there. -/
def Volume.HasFirst (v : Volume) (ps : List Path) : Prop :=
  ∀ p ∈ ps.head?, p.bytes = [] ∨ v.isDirectory p = true

theorem hasFirst_of_makeAll {ps : List Path} (h : v.makeAll ps = (after, none)) :
    after.HasFirst ps := by
  have hmade : ∀ {w made : Volume} {q : Path}, w.makeDirectory q = .ok made →
      made.isDirectory q = true := by
    intro w made q hmake
    obtain ⟨directory, name, -, -, -, rfl, hresolve⟩ := exists_put_of_makeDirectory hmake
    exact isDirectory_iff.2 ⟨_, hresolve, by rw [lookup_put (by simp), if_pos rfl]⟩
  have hthere : ∀ {w : Volume} {q : Path} {fault : IoFault},
      (w, if w.isDirectory q then none else some fault) = (after, none) →
      after.isDirectory q = true := by
    intro w q fault heq
    obtain ⟨rfl, hstop⟩ := Prod.mk.inj heq
    by_contra hnot
    rw [if_neg hnot] at hstop
    cases hstop
  intro p hp
  fun_induction Volume.makeAll v ps with
  | case1 => cases hp
  | case2 q above hbytes =>
    cases hp
    exact .inl hbytes
  | case3 q above hbytes made hmake =>
    cases hp
    cases h
    exact .inr (hmade hmake)
  | case4 => cases h
  | case5 q above hbytes hmissing ready habove made hmake =>
    cases hp
    cases h
    exact .inr (hmade hmake)
  | case6 q above hbytes hmissing ready habove fault hfault =>
    cases hp
    exact .inr (hthere h)
  | case7 q above hbytes fault hmissing hfault =>
    cases hp
    exact .inr (hthere h)

theorem makeAll_of_hasFirst {ps : List Path} (h : v.HasFirst ps) : v.makeAll ps = (v, none) := by
  cases ps with
  | nil => rfl
  | cons p above =>
    rcases h p rfl with hbytes | hdirectory
    · rw [Volume.makeAll, if_pos hbytes]
    · by_cases hbytes : p.bytes = []
      · rw [Volume.makeAll, if_pos hbytes]
      · rw [Volume.makeAll, if_neg hbytes, makeDirectory_of_isDirectory hdirectory]
        simp [hdirectory]

theorem isDirectory_of_rewritten (h : v.Rewritten changed after) (hp : v.isDirectory p = true) :
    after.isDirectory p = true := by
  obtain ⟨location, hresolve, hdirectory⟩ := isDirectory_iff.1 hp
  exact isDirectory_iff.2 ⟨location, resolve_of_rewritten h hresolve, h.directory hdirectory⟩

/-! ## Writing again -/

/-- **A path to a file, with all the directories above it.** Writing to it makes no directory. -/
structure Volume.Settled (v : Volume) (p : Path) (location : Location) : Prop where
  directories : v.HasFirst (p.parent?.getD ⟨[]⟩).ancestors
  resolve : v.resolve p = .ok location
  file : ∃ content, v.lookup location = some (.file content)

theorem Volume.Settled.of_rewritten (h : v.Settled p location)
    (hrewritten : v.Rewritten changed after) : after.Settled p location := by
  obtain ⟨content, hfile⟩ := h.file
  obtain ⟨new, hnew, -⟩ := hrewritten.file hfile
  refine ⟨fun q hq => ?_, resolve_of_rewritten hrewritten h.resolve, new, hnew⟩
  exact (h.directories q hq).imp_right (isDirectory_of_rewritten hrewritten)

theorem settled_of_writeSource (h : writeSource v p code = (after, none)) :
    ∃ location, after.Settled p location := by
  obtain ⟨location, -, hresolve, hfile⟩ := rewritten_of_writeSource h
  refine ⟨location, ?_, hresolve, _, hfile⟩
  unfold writeSource at h
  dsimp only at h
  split at h
  · cases h
  rename_i made hmake
  split at h
  · cases h
  rename_i done hwrite
  cases h
  obtain ⟨written, hrewritten, -, -⟩ := rewritten_of_write hwrite
  intro q hq
  exact (hasFirst_of_makeAll hmake q hq).imp_right (isDirectory_of_rewritten hrewritten)

/-- Every source that was written is where its path leads in the end. -/
theorem settled_of_writeAll (h : (writeAll output v outputs).stop = none) :
    ∀ o ∈ outputs, ∃ location,
      (writeAll output v outputs).volume.Settled (pathOfTarget output o.1.target) location := by
  induction outputs generalizing v with
  | nil => exact nofun
  | cons first rest ih =>
    obtain ⟨next, hnext, hstop⟩ := exists_writeSource_of_writeAll h
    rw [writeAll_cons_of_writeSource hnext]
    refine List.forall_mem_cons.2 ⟨?_, ih hstop⟩
    obtain ⟨location, hsettled⟩ := settled_of_writeSource hnext
    obtain ⟨changed, hrewritten, -⟩ := rewritten_of_writeAll output next rest
    exact ⟨location, hsettled.of_rewritten hrewritten⟩

theorem write_of_file {front : List Name} {content old : List UInt8}
    (hresolve : v.resolve p = .ok location) (hfile : v.lookup location = some (.file old))
    (hparts : p.parts = front ++ [name]) (hname : IsName name) :
    v.write p content = .ok (v.put location (.file content)) := by
  obtain ⟨hbytes, hfollow⟩ := resolve_eq_ok_iff.1 hresolve
  rw [hparts] at hfollow
  obtain ⟨directory, hfront, hlast⟩ := follow_append_eq_ok hfollow
  have hdirectory := directory_of_follow (List.cons_ne_nil _ _) hlast
  have hlocation := follow_names (List.forall_mem_singleton.2 hname) hlast
  have hplace : v.place (v.startOf p) p.parts = .ok (directory, name) := by
    rw [Volume.place, hparts, List.dropLast_concat, hfront]
    simp [hdirectory, hname.ne_dot, hname.ne_dots]
  rw [Volume.write, if_neg hbytes, hplace]
  simp [← hlocation, hfile, hname.ne_nil]

/-- Where a source can be written without making directories, only its file changes. -/
theorem Volume.Settled.writeSource {front : List Name} (h : v.Settled p location)
    (hparts : p.parts = front ++ [name]) (hname : IsName name) (code : String) :
    ValueClass.writeSource v p code = (v.put location (.file (utf8 code)), none) := by
  obtain ⟨content, hfile⟩ := h.file
  unfold ValueClass.writeSource
  dsimp only
  rw [Volume.makeDirectories, makeAll_of_hasFirst h.directories]
  dsimp only
  rw [write_of_file h.resolve hfile hparts hname]

theorem wellFormed_of_writeSource (hv : v.WellFormed) (p : Path) (code : String) :
    (writeSource v p code).1.WellFormed := by
  have hmade : ∀ {w made : Volume} {q : Path}, w.WellFormed → w.makeDirectory q = .ok made →
      made.WellFormed := by
    intro w made q hw hmake
    obtain ⟨directory, name, hdirectory, hname, hnone, rfl, -⟩ := exists_put_of_makeDirectory hmake
    exact hw.put hdirectory hname (by simp [hnone]) _
  have hdirectories := makeAll_keeps hmade hv (p.parent?.getD ⟨[]⟩).ancestors
  unfold writeSource Volume.makeDirectories
  dsimp only
  split
  · rename_i made fault hmake
    rwa [hmake] at hdirectories
  · rename_i made hmake
    rw [hmake] at hdirectories
    split
    · exact hdirectories
    · rename_i done hwrite
      obtain ⟨directory, name, hdirectory, hname, hkind, rfl, -⟩ := exists_put_of_write hwrite
      exact hdirectories.put hdirectory hname hkind _

/-- **Writing sources leaves a tree.** -/
theorem wellFormed_of_writeAll (hv : v.WellFormed) (output : Path)
    (outputs : List (Source × String)) : (writeAll output v outputs).volume.WellFormed := by
  induction outputs generalizing v with
  | nil => exact hv
  | cons first rest ih =>
    have hnext := wellFormed_of_writeSource hv (pathOfTarget output first.1.target) first.2
    cases hwrite : writeSource v (pathOfTarget output first.1.target) first.2 with
    | mk next stop =>
      rw [hwrite] at hnext
      cases stop with
      | some fault =>
        rw [writeAll_cons_of_fault hwrite]
        exact hnext
      | none =>
        rw [writeAll_cons_of_writeSource hwrite]
        exact ih hnext

/-- The volume differs from the last one at most where sources are still to be written. -/
structure Volume.CatchesUp (w last : Volume) (output : Path) (rest : List (Source × String)) :
    Prop where
  locations : w.entries.map (·.1) = last.entries.map (·.1)
  rewritten : ∃ changed, last.Rewritten changed w
  lookup : ∀ l, (∀ o ∈ rest, last.resolve (pathOfTarget output o.1.target) ≠ .ok l) →
    w.lookup l = last.lookup l

/-- Writing one source catches up with its file, unless it is to be written again. -/
theorem Volume.CatchesUp.put {rest : List (Source × String)}
    (h : w.CatchesUp last output ((s, code) :: rest))
    (hsettled : last.Settled (pathOfTarget output s.target) location)
    (hcode : (∀ o ∈ rest, last.resolve (pathOfTarget output o.1.target) ≠ .ok location) →
      last.lookup location = some (.file (utf8 code))) :
    (w.put location (.file (utf8 code))).CatchesUp last output rest := by
  obtain ⟨changed, hrewritten⟩ := h.rewritten
  obtain ⟨content, hfile⟩ := (hsettled.of_rewritten hrewritten).file
  have hroot : location ≠ [] := by
    rintro rfl
    cases hfile
  have hkind : w.lookup location ≠ some .directory := by
    rw [hfile]
    nofun
  refine ⟨?_, ⟨_, hrewritten.trans (rewritten_put_file hroot hkind _)⟩, fun l hl => ?_⟩
  · rw [map_fst_put hroot hfile, h.locations]
  · rw [lookup_put hroot]
    by_cases hat : l = location
    · rw [if_pos hat, hat, hcode (hat ▸ hl)]
    · rw [if_neg hat]
      refine h.lookup l (List.forall_mem_cons.2 ⟨?_, hl⟩)
      rw [hsettled.resolve]
      exact fun heq => hat (Except.ok.inj heq).symm

theorem exists_parts_pathOfTarget {target : String} (h : Placeable target) (output : Path) :
    ∃ front name, (pathOfTarget output target).parts = front ++ [name] ∧ IsName name := by
  have hne := namesOfTarget_ne_nil target
  obtain ⟨front, name, hnames⟩ := (List.eq_nil_or_concat' _).resolve_left hne
  refine ⟨output.base ++ front, name, ?_, h.isName name (by simp [hnames])⟩
  rw [pathOfTarget_eq_foldl, parts_foldl_push h.isName hne, hnames, List.append_assoc]

section Again

variable (hstop : (writeAll output v outputs).stop = none)
  (hplaceable : ∀ o ∈ outputs, Placeable o.1.target)

include hstop hplaceable

/-- The last source for a place is what is there in the end. -/
theorem lookup_of_writeAll {front rest : List (Source × String)}
    (houtputs : outputs = front ++ (s, code) :: rest)
    (hresolve : (writeAll output v outputs).volume.resolve (pathOfTarget output s.target)
      = .ok location)
    (hlast : ∀ o ∈ rest,
      (writeAll output v outputs).volume.resolve (pathOfTarget output o.1.target) ≠ .ok location) :
    (writeAll output v outputs).volume.lookup location = some (.file (utf8 code)) := by
  have hs : Placeable s.target := hplaceable (s, code) (by simp [houtputs])
  have hrest : ∀ o ∈ rest, Placeable o.1.target ∧ o.1.target ≠ s.target := by
    intro o ho
    refine ⟨hplaceable o (by simp [houtputs, ho]), fun heq => hlast o ho ?_⟩
    rw [heq, hresolve]
  subst houtputs
  have hread := read_of_writeAll hstop hs hrest
  rw [Volume.read, hresolve] at hread
  dsimp only at hread
  split at hread
  · rename_i content hfile
    cases hread
    exact hfile
  · cases hread
  · cases hread

theorem writeAll_of_catchesUp (hv : v.WellFormed) {front rest : List (Source × String)}
    (houtputs : outputs = front ++ rest)
    (h : w.CatchesUp (writeAll output v outputs).volume output rest) :
    writeAll output w rest =
      ⟨(writeAll output v outputs).volume, rest.map (pathOfTarget output ·.1.target), none⟩ := by
  induction rest generalizing front w with
  | nil =>
    -- nothing is left to be written, so nothing differs
    have hdistinct := (wellFormed_of_writeAll hv output outputs).distinct
    obtain ⟨changed, hrewritten⟩ := h.rewritten
    have hsame := eq_of_lookup hdistinct h.locations hrewritten.working hrewritten.closed
      fun l => h.lookup l nofun
    rw [hsame]
    rfl
  | cons first rest ih =>
    obtain ⟨s, code⟩ := first
    have hmem : (s, code) ∈ outputs := by simp [houtputs]
    obtain ⟨location, hsettled⟩ := settled_of_writeAll hstop (s, code) hmem
    obtain ⟨changed, hrewritten⟩ := h.rewritten
    obtain ⟨before, name, hparts, hname⟩ :=
      exists_parts_pathOfTarget (hplaceable (s, code) hmem) output
    have hwrite := (hsettled.of_rewritten hrewritten).writeSource hparts hname code
    have hnext := h.put hsettled (lookup_of_writeAll hstop hplaceable houtputs hsettled.resolve)
    rw [writeAll_cons_of_writeSource hwrite, ih (by rw [houtputs, List.append_cons]) hnext]
    rfl

/-- **Writing the same sources once more changes nothing.** -/
theorem writeAll_again (hv : v.WellFormed) :
    writeAll output (writeAll output v outputs).volume outputs = writeAll output v outputs := by
  have hstart : (writeAll output v outputs).volume.CatchesUp (writeAll output v outputs).volume
      output outputs := ⟨rfl, ⟨[], .refl _⟩, fun _ _ => rfl⟩
  rw [writeAll_of_catchesUp hstop hplaceable hv (List.nil_append outputs).symm hstart,
    ← written_of_writeAll hstop, ← hstop]

end Again

/-! ## Finding again -/

theorem exists?_of_rewritten (h : v.Rewritten changed after) (hp : v.exists? p = true) :
    after.exists? p = true := by
  obtain ⟨location, entry, hresolve, hlookup⟩ := exists?_iff.1 hp
  obtain ⟨new, hnew⟩ := h.exists_lookup hlookup
  exact exists?_iff.2 ⟨location, new, resolve_of_rewritten h hresolve, hnew⟩

theorem step_of_rewritten (h : v.Rewritten changed after) {here next : Path} {part : Name}
    (hstep : step v here part = some next) : step after here part = some next := by
  unfold step at hstep ⊢
  dsimp only at hstep ⊢
  generalize (if here.components = [.current] then (⟨part⟩ : Path) else here.push part) = there
    at hstep ⊢
  split at hstep
  · rename_i hdots
    rw [if_pos hdots]
    split at hstep
    · rename_i hdirectory
      rwa [if_pos (isDirectory_of_rewritten h hdirectory)]
    · cases hstep
  · rename_i hname
    rw [if_neg hname]
    split at hstep
    · rename_i hthere
      rwa [if_pos (exists?_of_rewritten h hthere)]
    · cases hstep

theorem isClosed_of_rewritten (h : v.Rewritten changed after) (hp : v.resolve p = .ok location) :
    after.isClosed p = v.isClosed p := by
  rw [Volume.isClosed, Volume.isClosed, hp, resolve_of_rewritten h hp, h.closed]

theorem steps_of_rewritten (h : v.Rewritten changed after) {here base : Path}
    {parts : List PatternPart} (hbytes : here.bytes ≠ [])
    (hslash : ∀ part ∈ parts, slash ∉ part.name)
    (hsteps : steps v here parts = .ok (some base)) : steps after here parts = .ok (some base) := by
  induction parts generalizing here with
  | nil => exact hsteps
  | cons part rest ih =>
    obtain ⟨hpart, hrest⟩ := List.forall_mem_cons.1 hslash
    rw [steps] at hsteps ⊢
    split at hsteps
    · cases hsteps
    rename_i hguard
    split at hsteps
    · rename_i next hnext
      obtain ⟨hbytes, location, hhere⟩ := exists_resolve_of_step hpart hbytes hnext
      rw [isClosed_of_rewritten h hhere, if_neg hguard, step_of_rewritten h hnext]
      exact ih hbytes hrest hsteps
    · cases hsteps

/-- The search for declarations takes the same way. -/
theorem walk_of_rewritten (h : v.Rewritten changed after) {base : Path}
    (hwalk : walk v r.sought = .ok (some base)) : walk after r.sought = .ok (some base) := by
  refine steps_of_rewritten h ?_ (fun _ hpart => Pattern.slash_not_mem_of_mem_directory hpart) hwalk
  split <;> simp

theorem reaches_of_rewritten (h : v.Rewritten changed after) (location : Location)
    (names : List Name) : after.reaches location names = v.reaches location names := by
  rw [Volume.reaches, Volume.reaches, h.closed]

section Kept

variable (hv : v.WellFormed) (hafter : after.WellFormed) (h : v.Rewritten changed after)
  (hkept : ∀ front name, front ++ [name] ∈ changed → ¬sourceEnding <:+ name)

include hv h hkept

include hafter in
/-- The same files are declarations as long as none has changed. -/
theorem filter_declaresAt_of_rewritten (location : Location) :
    (after.below location).filter (after.declaresAt location)
      = (v.below location).filter (v.declaresAt location) := by
  have hmem : ∀ names, names ∈ (after.below location).filter (after.declaresAt location) ↔
      names ∈ (v.below location).filter (v.declaresAt location) := by
    intro names
    simp only [List.mem_filter, Volume.declaresAt, Bool.and_eq_true, reaches_of_rewritten h,
      mem_below_iff hafter.distinct, mem_below_iff hv.distinct, isFileAt_iff]
    constructor
    · rintro ⟨-, hreaches, hending, content, hfile⟩
      obtain ⟨front, name, rfl, -, hends⟩ := hasEnding_iff.1 hending
      have hold : v.lookup (location ++ (front ++ [name])) = some (.file content) := by
        refine h.old_file hfile fun hchanged => ?_
        rw [← List.append_assoc] at hchanged
        exact hkept _ _ hchanged hends
      exact ⟨.inr ⟨_, hold⟩, hreaches, hending, content, hold⟩
    · rintro ⟨-, hreaches, hending, content, hfile⟩
      obtain ⟨new, hnew, -⟩ := h.file hfile
      exact ⟨.inr ⟨_, hnew⟩, hreaches, hending, new, hnew⟩
  have hperm := (List.perm_ext_iff_of_nodup ((nodup_below hafter.distinct location).filter _)
    ((nodup_below hv.distinct location).filter _)).2 hmem
  exact hperm.eq_of_pairwise (fun a b _ _ hab hba => Std.le_antisymm hab hba)
    ((sorted_below after location).filter _) ((sorted_below v location).filter _)

include hafter in
/-- **The same declarations are found as long as none has changed.** -/
theorem declarationPaths_of_rewritten (hne : r.declarationPaths v ≠ []) :
    r.declarationPaths after = r.declarationPaths v := by
  obtain ⟨base, location, hwalk, hbase⟩ := exists_walk_of_declarationPaths hne
  rw [declarationPaths_eq hv hwalk hbase, declarationPaths_eq hafter (walk_of_rewritten h hwalk)
    (resolve_of_rewritten h hbase), filter_declaresAt_of_rewritten hv hafter h hkept]

omit hkept in
include hafter in
/-- No directory that cannot be listed is found that was not found before. -/
theorem error_not_mem_of_rewritten (hne : r.declarationPaths v ≠ [])
    (hlisted : ∀ q, .error q ∉ v.search r.sought) : ∀ q, .error q ∉ after.search r.sought := by
  obtain ⟨base, location, hwalk, hbase⟩ := exists_walk_of_declarationPaths hne
  have hbefore := exists_error_mem_search_iff hwalk hbase hv
  have hagain := exists_error_mem_search_iff (walk_of_rewritten h hwalk)
    (resolve_of_rewritten h hbase) hafter
  rw [h.closed, ← hbefore] at hagain
  exact not_exists.1 (mt hagain.1 (not_exists.2 hlisted))

theorem code_of_rewritten {sources : List Source} (hsources : r.declarations v = .ok sources)
    (hs : s ∈ sources) : s.code after = s.code v := by
  obtain ⟨front, name, content, hresolve, hending, hfile⟩ :=
    exists_file_of_mem_declarationPaths hv (path_mem_of_declarations hsources s hs)
  have hsame := (h.lookup_file_iff fun hchanged => hkept front name hchanged hending).2 hfile
  have hread := read_of_resolve (resolve_of_rewritten h hresolve) hsame
  unfold Source.code Volume.readText
  rw [hread, read_of_resolve hresolve hfile]

end Kept

/-! ## Generating again -/

/-- What a generation writes is no declaration. -/
theorem not_declaration_of_generate (r : Roots) (policy : OnFailure) (v : Volume) :
    ∃ changed, v.Rewritten changed (r.generate policy v).volume ∧
      ∀ front name, front ++ [name] ∈ changed → ¬sourceEnding <:+ name := by
  obtain ⟨changed, hrewritten, hchanged⟩ := changed_of_generate r policy v
  refine ⟨changed, hrewritten, fun front name hmem => ?_⟩
  obtain ⟨s, hs, hresolve⟩ := hchanged _ hmem
  obtain ⟨code, hcode, hslash⟩ := exists_code_of_renderable hs
  exact not_declaration_of_resolve (placeable_of_code hcode hslash) hresolve rfl

/-- Where nothing else has changed, declarations are found again and rendered alike. -/
theorem rendered_of_rewritten (hv : v.WellFormed) (hafter : after.WellFormed)
    (h : v.Rewritten changed after)
    (hkept : ∀ front name, front ++ [name] ∈ changed → ¬sourceEnding <:+ name)
    {sources : List Source} (hsources : r.declarations v = .ok sources)
    (hne : r.declarationPaths v ≠ []) : r.rendered after = r.rendered v := by
  have hfound : r.declarations after = .ok sources := by
    obtain ⟨htext, found, hfound, hsorted⟩ := declarations_eq_ok_iff.1 hsources
    obtain ⟨hlisted, htargets⟩ := sourcesAmong_eq_ok_iff.1 hfound
    have hpaths : filesAmong after (after.search r.sought) = filesAmong v (v.search r.sought) :=
      declarationPaths_of_rewritten hv hafter h hkept hne
    refine declarations_eq_ok_iff.2 ⟨htext, found, sourcesAmong_eq_ok_iff.2 ⟨?_, ?_⟩, hsorted⟩
    · exact error_not_mem_of_rewritten hv hafter h hne hlisted
    · rwa [hpaths]
  have hcodes : sources.map (fun s => (s, s.code after)) = sources.map fun s => (s, s.code v) :=
    List.map_congr_left fun s hs => by rw [code_of_rewritten hv h hkept hsources hs]
  rw [Roots.rendered, Roots.rendered, hfound, hsources]
  exact congrArg Except.ok hcodes

/-- **Generating once more changes nothing and reports the same.** Whatever the roots are, a
generation that came to its end leaves a volume on which the next one finds the same declarations,
writes the same files with the same sources and fails at the same declarations. -/
theorem generate_again {result : GenerationResult} (hv : v.WellFormed)
    (h : (r.generate policy v).result = .ok result) :
    r.generate policy (r.generate policy v).volume = r.generate policy v := by
  obtain ⟨changed, hrewritten, hkept⟩ := not_declaration_of_generate r policy v
  obtain ⟨fault, -, hgenerate⟩ | ⟨sources, hsources, hcases⟩ := generate_cases r policy v
  · rw [hgenerate] at h
    cases h
  obtain ⟨-, hgenerate⟩ | ⟨hgo, ⟨fault, -, hgenerate⟩ | ⟨hstop, hgenerate⟩⟩ := hcases
  · rw [hgenerate]
    exact hgenerate
  · rw [hgenerate] at h
    cases h
  have hvolume := congrArg Generation.volume hgenerate
  by_cases hne : r.declarationPaths v = []
  · -- without declarations nothing was written
    have hnone : sources = [] := by
      refine List.eq_nil_iff_forall_not_mem.2 fun s hs => ?_
      have hpath := path_mem_of_declarations hsources s hs
      rw [hne] at hpath
      cases hpath
    rw [hnone] at hvolume
    rw [hvolume]
    rfl
  have hplaceable := fun o => placeable_of_mem_successes (o := o) hsources
  have hafter := wellFormed_of_writeAll hv r.output (successes (renderedFrom v sources))
  have hrendered : r.rendered v = .ok (renderedFrom v sources) := by
    rw [Roots.rendered, hsources]
    rfl
  rw [OnFailure.Withholds, ← failures_ne_nil_iff] at hgo
  rw [hvolume] at hrewritten ⊢
  have hagain := rendered_of_rewritten hv hafter hrewritten hkept hsources hne
  rw [Roots.generate, hagain, hrendered]
  dsimp only
  rw [if_neg hgo, writeAll_again hstop hplaceable hv, hstop, hgenerate]

/-- Sources are written beside their declarations, two of them to the same file. -/
theorem generate_again_same_target :
    let v : Volume := ⟨[([utf8 "s"], .directory), ([utf8 "s", utf8 "a"], .directory),
      ([utf8 "s", utf8 "a", utf8 "B.scroole"], .file []),
      ([utf8 "s", utf8 "a.B.scroole"], .file (utf8 "#D\n\n"))], [], []⟩
    let r : Roots := ⟨.ofString "s", .ofString "s"⟩
    let generation := r.generate .writeNothing v
    v.WellFormed ∧
      (∃ result, generation.result = .ok result ∧
        result.written = [.ofString "s/a/B.java", .ofString "s/a/B.java"]) ∧
      r.generate .writeNothing generation.volume = generation := by
  intro v r generation
  let s : Source := ⟨"a.B", .ofString "s/a/B.scroole"⟩
  let t : Source := ⟨"a.B", .ofString "s/a.B.scroole"⟩
  have hv : v.WellFormed :=
    ⟨by decide +kernel, by decide +kernel, by decide +kernel, by decide +kernel⟩
  let first := (Java.CompilationUnit.ofTypes ⟨"a", "B", "", []⟩ []).text
  let second := (Java.CompilationUnit.ofTypes ⟨"a", "B", "D", []⟩ []).text
  have hwalk : walk v r.sought = .ok (some r.source) := by decide +kernel
  have hroot : v.resolve r.source = .ok [utf8 "s"] := by decide +kernel
  have hsources : r.declarations v = .ok [s, t] :=
    declarations_of_sorted (by decide +kernel) hwalk hroot (by decide +kernel) (by decide +kernel)
      (by decide +kernel)
  have hs : s.code v = .ok first := code_of_empty (by decide +kernel) (by decide +kernel)
  have ht : t.code v = .ok second := by
    have htext : v.readText t.path = .ok "#D\n\n" := by decide +kernel
    have hread : Description.read t.target "#D\n\n" = .ok ⟨"a", "B", "D", []⟩ := by decide +kernel
    exact code_of_readAll htext hread (by decide +kernel)
  have hsuccesses : successes (renderedFrom v [s, t]) = [(s, first), (t, second)] := by
    simp only [renderedFrom, List.map_cons, List.map_nil, hs, ht]
    rfl
  have hgo : ¬OnFailure.writeNothing.Withholds v [s, t] := by
    rw [OnFailure.Withholds, ← failures_ne_nil_iff, renderedFrom]
    simp [failures, hs, ht]
  have hstop : (writeAll r.output v (successes (renderedFrom v [s, t]))).stop = none := by
    rw [hsuccesses]
    decide +kernel
  have hresult := congrArg Generation.result (generate_of_stop hsources hgo hstop)
  have htargets : renderedTargets v [s, t] = ["a.B", "a.B"] := by
    rw [renderedTargets_eq, hsuccesses]
    rfl
  have hpath : pathOfTarget r.output "a.B" = .ofString "s/a/B.java" := by decide +kernel
  refine ⟨hv, ⟨_, hresult, ?_⟩, generate_again hv hresult⟩
  rw [htargets, List.map_cons, List.map_cons, List.map_nil, hpath]

end ValueClass
