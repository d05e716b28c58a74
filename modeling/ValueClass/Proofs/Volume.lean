import ValueClass.Proofs.Lists
import ValueClass.Proofs.Pieces
import ValueClass.Volume

/-!
# What changes on a volume

Nothing is ever taken away from a volume. Directories are added, and files are added or get a new
content, so that a path goes on leading where it led.

* `Volume.Rewritten`: a volume later on, and the locations whose files may have a new content.
* `follow_of_rewritten`: **paths lead where they led.**
* `rewritten_of_makeDirectories`: making directories changes no file.
* `rewritten_of_write`: **writing changes one file**, which its path then leads to.
-/

namespace ValueClass

open Text

variable {v after last : Volume} {location found : Location} {p : Path}

/-! ## Putting something at a location -/

theorem lookup_putEntry (location : Location) (entry : Entry) (other : Location)
    (entries : List (Location × Entry)) :
    (Volume.putEntry location entry entries).lookup other =
      if other = location then some entry else entries.lookup other := by
  fun_induction Volume.putEntry location entry entries with
  | case1 => rw [lookup_cons_eq_ite]
  | case2 e rest =>
    rw [lookup_cons_eq_ite, lookup_cons_eq_ite]
    split <;> rfl
  | case3 l e rest hl ih =>
    rw [lookup_cons_eq_ite, lookup_cons_eq_ite, ih]
    by_cases hother : other = l
    · rw [if_pos hother, if_neg (hother ▸ hl), if_pos hother]
    · rw [if_neg hother, if_neg hother]

/-- What is put at a location is there, and everything else is as it was. -/
theorem lookup_put (h : location ≠ []) (entry : Entry) (other : Location) :
    (v.put location entry).lookup other =
      if other = location then some entry else v.lookup other := by
  unfold Volume.lookup
  by_cases hroot : other = []
  · rw [if_pos hroot, if_pos hroot, if_neg (hroot ▸ Ne.symm h)]
  · rw [if_neg hroot, if_neg hroot]
    exact lookup_putEntry location entry other v.entries

/-! ## A volume later on -/

/-- **A volume later on.** Directories are still there, and so are files, those outside the given
locations with the same content. No files are new but at these locations. -/
structure Volume.Rewritten (v : Volume) (changed : List Location) (after : Volume) : Prop where
  working : after.working = v.working
  closed : after.closed = v.closed
  directory : ∀ {l}, v.lookup l = some .directory → after.lookup l = some .directory
  file : ∀ {l content}, v.lookup l = some (.file content) →
    ∃ new, after.lookup l = some (.file new) ∧ (l ∉ changed → new = content)
  old_file : ∀ {l content}, after.lookup l = some (.file content) → l ∉ changed →
    v.lookup l = some (.file content)

theorem Volume.Rewritten.refl (v : Volume) : v.Rewritten [] v :=
  ⟨rfl, rfl, id, fun h => ⟨_, h, fun _ => rfl⟩, fun h _ => h⟩

theorem Volume.Rewritten.trans {changed more : List Location} (h : v.Rewritten changed after)
    (hnext : after.Rewritten more last) : v.Rewritten (changed ++ more) last := by
  refine ⟨hnext.working.trans h.working, hnext.closed.trans h.closed,
    fun hl => hnext.directory (h.directory hl), ?_, ?_⟩
  · intro l content hl
    obtain ⟨new, hnew, heq⟩ := h.file hl
    obtain ⟨newest, hnewest, hsame⟩ := hnext.file hnew
    refine ⟨newest, hnewest, fun hout => ?_⟩
    obtain ⟨hfirst, hsecond⟩ := not_or.1 (mt List.mem_append.2 hout)
    exact (hsame hsecond).trans (heq hfirst)
  · intro l content hl hout
    obtain ⟨hfirst, hsecond⟩ := not_or.1 (mt List.mem_append.2 hout)
    exact h.old_file (hnext.old_file hl hsecond) hfirst

/-- A file outside the given locations is there before exactly if it is there later on. -/
theorem Volume.Rewritten.lookup_file_iff {changed : List Location} (h : v.Rewritten changed after)
    {l : Location} (hout : l ∉ changed) {content : List UInt8} :
    after.lookup l = some (.file content) ↔ v.lookup l = some (.file content) := by
  constructor
  · intro hl
    exact h.old_file hl hout
  · intro hl
    obtain ⟨new, hnew, hsame⟩ := h.file hl
    rw [hnew, hsame hout]

theorem Volume.Rewritten.exists_lookup {changed : List Location} (h : v.Rewritten changed after)
    {l : Location} {entry : Entry} (hl : v.lookup l = some entry) :
    ∃ new, after.lookup l = some new := by
  cases entry with
  | directory => exact ⟨_, h.directory hl⟩
  | file content =>
    obtain ⟨new, hnew, -⟩ := h.file hl
    exact ⟨_, hnew⟩

/-- A new directory, where nothing was. -/
theorem rewritten_put_directory (hroot : location ≠ []) (h : v.lookup location = none) :
    v.Rewritten [] (v.put location .directory) := by
  have hother : ∀ {l entry}, v.lookup l = some entry →
      (v.put location .directory).lookup l = some entry := by
    intro l entry hl
    have hne : l ≠ location := by
      rintro rfl
      rw [h] at hl
      cases hl
    rw [lookup_put hroot, if_neg hne, hl]
  refine ⟨rfl, rfl, hother, fun hl => ⟨_, hother hl, fun _ => rfl⟩, fun {l content} hl _ => ?_⟩
  rw [lookup_put hroot] at hl
  split at hl
  · cases hl
  · exact hl

/-- A file, where no directory was. -/
theorem rewritten_put_file (hroot : location ≠ []) (h : v.lookup location ≠ some .directory)
    (content : List UInt8) : v.Rewritten [location] (v.put location (.file content)) := by
  refine ⟨rfl, rfl, fun {l} hl => ?_, fun {l old} hl => ?_, fun {l old} hl hout => ?_⟩
  · have hne : l ≠ location := by
      rintro rfl
      exact h hl
    rw [lookup_put hroot, if_neg hne, hl]
  · rw [lookup_put hroot]
    by_cases hat : l = location
    · exact ⟨content, if_pos hat, fun hout => absurd (List.mem_singleton.2 hat) hout⟩
    · exact ⟨old, by rw [if_neg hat, hl], fun _ => rfl⟩
  · rwa [lookup_put hroot, if_neg (mt List.mem_singleton.2 hout)] at hl

/-! ## Following paths -/

theorem follow_append (v : Volume) (location : Location) (parts more : List Name) :
    v.follow location (parts ++ more) =
      (v.follow location parts).bind fun next => v.follow next more := by
  fun_induction Volume.follow v location parts with
  | case1 => rfl
  | case2 location part rest hplace =>
    rw [List.cons_append, Volume.follow, if_pos hplace]
    rfl
  | case3 location part rest hplace hstay ih =>
    rw [List.cons_append, Volume.follow, if_neg hplace, if_pos hstay, ih]
  | case4 location rest hplace hstay ih =>
    rw [List.cons_append, Volume.follow, if_neg hplace, if_neg hstay, if_pos rfl, ih]
  | case5 location part rest hplace hstay hup hnone =>
    rw [List.cons_append, Volume.follow, if_neg hplace, if_neg hstay, if_neg hup, hnone]
    rfl
  | case6 location part rest hplace hstay hup entry hentry ih =>
    rw [List.cons_append, Volume.follow, if_neg hplace, if_neg hstay, if_neg hup, hentry]
    exact ih

theorem follow_append_eq_ok {parts more : List Name}
    (h : v.follow location (parts ++ more) = .ok found) :
    ∃ next, v.follow location parts = .ok next ∧ v.follow next more = .ok found := by
  rw [follow_append] at h
  cases hnext : v.follow location parts with
  | error fault =>
    rw [hnext] at h
    cases h
  | ok next =>
    rw [hnext] at h
    exact ⟨next, rfl, h⟩

/-- Empty parts and single dots stay in a directory. -/
theorem follow_of_stay (h : v.lookup location = some .directory) {parts : List Name}
    (hstay : ∀ part ∈ parts, part = [] ∨ part = [dot]) :
    v.follow location parts = .ok location := by
  induction parts with
  | nil => rfl
  | cons part rest ih =>
    obtain ⟨hpart, hrest⟩ := List.forall_mem_cons.1 hstay
    rw [Volume.follow, if_neg (not_not.2 h), if_pos hpart]
    exact ih hrest

/-- **Paths lead where they led.** -/
theorem follow_of_rewritten {changed : List Location} (h : v.Rewritten changed after)
    {parts : List Name} (hfollow : v.follow location parts = .ok found) :
    after.follow location parts = .ok found := by
  -- each step asks for a directory where it stands, and for anything at all where it goes
  fun_induction Volume.follow v location parts with
  | case1 => exact hfollow
  | case2 => cases hfollow
  | case3 location part rest hplace hstay ih =>
    rw [Volume.follow, h.directory (not_not.1 hplace), if_neg (not_not.2 rfl), if_pos hstay]
    exact ih hfollow
  | case4 location rest hplace hstay ih =>
    rw [Volume.follow, h.directory (not_not.1 hplace), if_neg (not_not.2 rfl), if_neg hstay,
      if_pos rfl]
    exact ih hfollow
  | case5 => cases hfollow
  | case6 location part rest hplace hstay hup entry hentry ih =>
    obtain ⟨new, hnew⟩ := h.exists_lookup hentry
    rw [Volume.follow, h.directory (not_not.1 hplace), if_neg (not_not.2 rfl), if_neg hstay,
      if_neg hup, hnew]
    exact ih hfollow

theorem resolve_eq_ok_iff :
    v.resolve p = .ok found ↔ p.bytes ≠ [] ∧ v.follow (v.startOf p) p.parts = .ok found := by
  unfold Volume.resolve
  by_cases hbytes : p.bytes = [] <;> simp [hbytes]

theorem startOf_of_rewritten {changed : List Location} (h : v.Rewritten changed after) (p : Path) :
    after.startOf p = v.startOf p := by
  rw [Volume.startOf, Volume.startOf, h.working]

theorem resolve_of_rewritten {changed : List Location} (h : v.Rewritten changed after)
    (hresolve : v.resolve p = .ok found) : after.resolve p = .ok found := by
  rw [resolve_eq_ok_iff] at hresolve ⊢
  rw [startOf_of_rewritten h]
  exact ⟨hresolve.1, follow_of_rewritten h hresolve.2⟩

theorem isDirectory_iff :
    v.isDirectory p = true ↔
      ∃ location, v.resolve p = .ok location ∧ v.lookup location = some .directory := by
  unfold Volume.isDirectory Volume.entry?
  cases v.resolve p with
  | error fault => simp
  | ok location => simp

theorem exists?_iff :
    v.exists? p = true ↔
      ∃ location entry, v.resolve p = .ok location ∧ v.lookup location = some entry := by
  unfold Volume.exists? Volume.entry?
  cases v.resolve p with
  | error fault => simp
  | ok location => simp [Option.isSome_iff_exists]

theorem read_of_resolve (hresolve : v.resolve p = .ok location) {content : List UInt8}
    (hlookup : v.lookup location = some (.file content)) : v.read p = .ok content := by
  rw [Volume.read, hresolve]
  simp only [hlookup]

/-! ## Directories and files -/

/-- **A name that leads one step down.** -/
structure IsName (name : Name) : Prop where
  ne_nil : name ≠ []
  ne_dot : name ≠ [dot]
  ne_dots : name ≠ [dot, dot]
  slash_not_mem : slash ∉ name

/-- What is to hold a name is a directory, which the other parts lead to. -/
theorem place_eq_ok {start directory : Location} {parts : List Name} {name : Name}
    (h : v.place start parts = .ok (directory, name)) (hname : name ≠ []) :
    v.follow start parts.dropLast = .ok directory ∧ v.lookup directory = some .directory ∧
      parts = parts.dropLast ++ [name] ∧ name ≠ [dot] ∧ name ≠ [dot, dot] := by
  unfold Volume.place at h
  split at h
  · cases h
  rename_i there hfollow
  split at h
  · cases h
  rename_i hplace
  dsimp only at h
  split at h
  · cases h
    exact absurd rfl hname
  rename_i hdots
  cases h
  refine ⟨hfollow, not_not.1 hplace, ?_, not_or.1 hdots⟩
  cases hlast : parts.getLast? with
  | none =>
    rw [hlast] at hname
    exact absurd rfl hname
  | some last =>
    obtain ⟨front, rfl⟩ := List.getLast?_eq_some_iff.1 hlast
    rw [List.dropLast_concat]
    rfl

/-- What a directory is made of: nothing was at its place in another one, where its path leads
then. -/
theorem exists_put_of_makeDirectory (h : v.makeDirectory p = .ok after) :
    ∃ directory name, v.lookup directory = some .directory ∧ IsName name ∧
      v.lookup (directory ++ [name]) = none ∧ after = v.put (directory ++ [name]) .directory ∧
      after.resolve p = .ok (directory ++ [name]) := by
  unfold Volume.makeDirectory at h
  split at h
  · cases h
  rename_i hbytes
  dsimp only at h
  split at h
  · cases h
  rename_i directory name hplace
  split at h
  · cases h
  rename_i hname
  split at h
  · cases h
  rename_i hnone
  cases h
  have hroot : directory ++ [name] ≠ [] := by simp
  have hrewritten := rewritten_put_directory hroot hnone
  have hnew : (v.put (directory ++ [name]) .directory).lookup (directory ++ [name])
      = some .directory := by
    rw [lookup_put hroot, if_pos rfl]
  obtain ⟨hfollow, hdirectory, hparts, hstay, hup⟩ := place_eq_ok hplace hname
  -- after the name there are empty parts at most, which stay in the new directory
  obtain ⟨ends, hsplit, hempty⟩ := exists_end_eq List.isEmpty p.parts
  have hmem : name ∈ p.parts := by
    rw [hsplit, hparts]
    simp
  refine ⟨directory, name, hdirectory, ⟨hname, hstay, hup, not_mem_of_mem_splitOn hmem⟩, hnone, rfl,
    ?_⟩
  rw [Volume.resolve, if_neg hbytes, startOf_of_rewritten hrewritten, hsplit, hparts,
    List.append_assoc, follow_append, follow_of_rewritten hrewritten hfollow]
  have hlast := follow_of_stay hnew fun part hpart => .inl (List.isEmpty_iff.1 (hempty part hpart))
  simp [Except.bind, Volume.follow, hrewritten.directory hdirectory, hname, hstay, hup, hnew, hlast]

theorem rewritten_of_makeDirectory (h : v.makeDirectory p = .ok after) : v.Rewritten [] after := by
  obtain ⟨directory, name, -, -, hnone, rfl, -⟩ := exists_put_of_makeDirectory h
  exact rewritten_put_directory (by simp) hnone

/-- What making one directory keeps, making several keeps. -/
theorem makeAll_keeps {P : Volume → Prop}
    (hkeeps : ∀ {w p made}, P w → Volume.makeDirectory w p = .ok made → P made) (h : P v)
    (ps : List Path) : P (v.makeAll ps).1 := by
  -- the directory itself is made last, on the volume where those above it are
  fun_induction Volume.makeAll v ps with
  | case1 | case2 => exact h
  | case3 p above hbytes made hmade => exact hkeeps h hmade
  | case4 p above hbytes hmissing ready fault habove ih =>
    rw [habove] at ih
    exact ih
  | case5 p above hbytes hmissing ready habove made hmade ih =>
    rw [habove] at ih
    exact hkeeps ih hmade
  | case6 p above hbytes hmissing ready habove fault hfault ih =>
    rw [habove] at ih
    exact ih
  | case7 => exact h

theorem rewritten_of_makeAll (v : Volume) (ps : List Path) : v.Rewritten [] (v.makeAll ps).1 :=
  makeAll_keeps (P := v.Rewritten []) (fun h hmade => h.trans (rewritten_of_makeDirectory hmade))
    (.refl v) ps

/-- Making directories changes no file. -/
theorem rewritten_of_makeDirectories (v : Volume) (p : Path) :
    v.Rewritten [] (v.makeDirectories p).1 :=
  rewritten_of_makeAll v p.ancestors

/-- What a file is written to: no directory was at its place in one, where its path leads then. -/
theorem exists_put_of_write {content : List UInt8} (h : v.write p content = .ok after) :
    ∃ directory name, v.lookup directory = some .directory ∧ IsName name ∧
      v.lookup (directory ++ [name]) ≠ some .directory ∧
      after = v.put (directory ++ [name]) (.file content) ∧
      after.resolve p = .ok (directory ++ [name]) := by
  unfold Volume.write at h
  split at h
  · cases h
  rename_i hbytes
  split at h
  · cases h
  rename_i directory name hplace
  split at h
  · cases h
  rename_i hfile
  obtain ⟨hname, hkind⟩ := not_or.1 hfile
  cases h
  have hroot : directory ++ [name] ≠ [] := by simp
  have hrewritten := rewritten_put_file hroot hkind content
  have hnew : (v.put (directory ++ [name]) (.file content)).lookup (directory ++ [name])
      = some (.file content) := by
    rw [lookup_put hroot, if_pos rfl]
  obtain ⟨hfollow, hdirectory, hparts, hstay, hup⟩ := place_eq_ok hplace hname
  have hmem : name ∈ p.parts := by
    rw [hparts]
    simp
  refine ⟨directory, name, hdirectory, ⟨hname, hstay, hup, not_mem_of_mem_splitOn hmem⟩, hkind, rfl,
    ?_⟩
  -- the parts before the name lead to the directory as they did, and the name into the new file
  rw [Volume.resolve, if_neg hbytes, startOf_of_rewritten hrewritten, hparts, follow_append,
    follow_of_rewritten hrewritten hfollow]
  simp [Except.bind, Volume.follow, hrewritten.directory hdirectory, hname, hstay, hup, hnew]

/-- **Writing changes one file**, which its path then leads to. -/
theorem rewritten_of_write {content : List UInt8} (h : v.write p content = .ok after) :
    ∃ location, v.Rewritten [location] after ∧ after.resolve p = .ok location ∧
      after.lookup location = some (.file content) := by
  obtain ⟨directory, name, -, -, hkind, rfl, hresolve⟩ := exists_put_of_write h
  have hroot : directory ++ [name] ≠ [] := by simp
  refine ⟨directory ++ [name], rewritten_put_file hroot hkind content, hresolve, ?_⟩
  rw [lookup_put hroot, if_pos rfl]

end ValueClass
