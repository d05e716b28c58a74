import Mathlib.Data.List.Induction
import ValueClass.Proofs.Confinement
import ValueClass.Proofs.Spelling

/-!
# What is below a directory

A volume is a tree of directories with files at the ends. What a directory holds, at any depth, is
found by the names that lead down to it, and a path that goes on by these names leads there.

* `Volume.WellFormed`: a tree of files and directories, which stays one when something is put into a
  directory (`Volume.WellFormed.put`).
* `mem_below_iff`: **what is below a directory is what names lead to from there**, each of it once
  (`nodup_below`) and in order (`sorted_below`).
* `follow_of_lookup`: names lead down to what is there.
* `resolve_pushNames`: so does a path that goes on by them.
-/

namespace ValueClass

open Text

variable {v after : Volume} {p : Path} {location found : Location} {name : Name} {names : List Name}
  {entry : Entry}

/-! ## Trees -/

instance : Decidable (IsName name) :=
  decidable_of_iff (name ≠ [] ∧ name ≠ [dot] ∧ name ≠ [dot, dot] ∧ slash ∉ name)
    ⟨fun ⟨h1, h2, h3, h4⟩ => ⟨h1, h2, h3, h4⟩, fun ⟨h1, h2, h3, h4⟩ => ⟨h1, h2, h3, h4⟩⟩

/-- Each location is listed once, and the root is not. -/
def Volume.Distinct (v : Volume) : Prop :=
  ([] :: v.entries.map (·.1)).Nodup

instance : Decidable v.Distinct :=
  inferInstanceAs (Decidable (List.Nodup _))

/-- **A tree of files and directories.** A location is made of names, and what is there is in a
directory. Only directories are said not to be listed. -/
structure Volume.WellFormed (v : Volume) : Prop where
  distinct : v.Distinct
  isName : ∀ e ∈ v.entries, ∀ name ∈ e.1, IsName name
  inDirectory : ∀ e ∈ v.entries, v.lookup e.1.dropLast = some .directory
  closed : ∀ location ∈ v.closed, v.lookup location = some .directory

theorem mem_entries_of_lookup (hroot : location ≠ []) (h : v.lookup location = some entry) :
    (location, entry) ∈ v.entries := by
  rw [Volume.lookup, if_neg hroot, List.lookup_eq_some_iff] at h
  obtain ⟨front, back, hentries, -⟩ := h
  rw [hentries]
  exact List.mem_append_right _ List.mem_cons_self

/-- What a volume lists is what is there. -/
theorem mem_entries_iff (hv : v.Distinct) (hroot : location ≠ []) :
    (location, entry) ∈ v.entries ↔ v.lookup location = some entry := by
  refine ⟨fun hmem => ?_, mem_entries_of_lookup hroot⟩
  rw [Volume.lookup, if_neg hroot]
  exact lookup_of_mem (List.nodup_cons.1 hv).2 hmem

theorem map_fst_putEntry_of_mem {entries : List (Location × Entry)}
    (h : location ∈ entries.map (·.1)) (entry : Entry) :
    (Volume.putEntry location entry entries).map (·.1) = entries.map (·.1) := by
  fun_induction Volume.putEntry location entry entries with
  | case1 => cases h
  | case2 e rest => rfl
  | case3 l e rest hne ih =>
    have hrest := (List.mem_cons.1 h).resolve_left (Ne.symm hne)
    rw [List.map_cons, ih hrest, List.map_cons]

theorem map_fst_putEntry_of_not_mem {entries : List (Location × Entry)}
    (h : location ∉ entries.map (·.1)) (entry : Entry) :
    (Volume.putEntry location entry entries).map (·.1) = entries.map (·.1) ++ [location] := by
  fun_induction Volume.putEntry location entry entries with
  | case1 => rfl
  | case2 e rest => exact absurd List.mem_cons_self h
  | case3 l e rest hne ih =>
    have hrest := (not_or.1 (mt List.mem_cons.2 h)).2
    rw [List.map_cons, ih hrest, List.map_cons, List.cons_append]

theorem Volume.Distinct.put (h : v.Distinct) (hroot : location ≠ []) (entry : Entry) :
    (v.put location entry).Distinct := by
  unfold Volume.Distinct Volume.put
  by_cases hmem : location ∈ v.entries.map (·.1)
  · rwa [map_fst_putEntry_of_mem hmem]
  · rw [map_fst_putEntry_of_not_mem hmem, ← List.cons_append]
    exact List.nodup_append.2 ⟨h, List.nodup_singleton _, by
      rintro l hl _ hlast rfl
      rcases List.mem_cons.1 hl with hl | hl
      · exact hroot ((List.mem_singleton.1 hlast).symm.trans hl)
      · exact hmem (List.mem_singleton.1 hlast ▸ hl)⟩

namespace Volume.WellFormed

variable (hv : v.WellFormed)

include hv

theorem isName_of_lookup (h : v.lookup location = some entry) : ∀ name ∈ location, IsName name := by
  intro name hname
  exact hv.isName _ (mem_entries_of_lookup (List.ne_nil_of_mem hname) h) name hname

/-- What has something below it is a directory. -/
theorem directory_of_lookup (hne : names ≠ []) (h : v.lookup (location ++ names) = some entry) :
    v.lookup location = some .directory := by
  induction names using List.reverseRecOn generalizing entry with
  | nil => exact absurd rfl hne
  | append_singleton front name ih =>
    have hroot : location ++ (front ++ [name]) ≠ [] := by simp
    have habove := hv.inDirectory _ (mem_entries_of_lookup hroot h)
    rw [← List.append_assoc, List.dropLast_concat] at habove
    by_cases hfront : front = []
    · rwa [hfront, List.append_nil] at habove
    · exact ih hfront habove

/-- **Names lead down to what is there.** -/
theorem follow_of_lookup (h : v.lookup (location ++ names) = some entry) :
    v.follow location names = .ok (location ++ names) := by
  induction names generalizing location with
  | nil => rw [Volume.follow, List.append_nil]
  | cons name rest ih =>
    have hname := hv.isName_of_lookup h name (by simp)
    have hdirectory := hv.directory_of_lookup (List.cons_ne_nil name rest) h
    rw [List.append_cons] at h ⊢
    have hnext : ∃ next, v.lookup (location ++ [name]) = some next := by
      by_cases hrest : rest = []
      · rw [hrest, List.append_nil] at h
        exact ⟨entry, h⟩
      · exact ⟨_, hv.directory_of_lookup hrest h⟩
    obtain ⟨next, hnext⟩ := hnext
    rw [Volume.follow, if_neg (not_not.2 hdirectory),
      if_neg (not_or.2 ⟨hname.ne_nil, hname.ne_dot⟩), if_neg hname.ne_dots, hnext]
    exact ih h

/-- **What is put into a directory under a name leaves a tree**, unless a directory was there. -/
theorem put {directory : Location} (hdirectory : v.lookup directory = some .directory)
    (hname : IsName name) (hkind : v.lookup (directory ++ [name]) ≠ some .directory)
    (entry : Entry) : (v.put (directory ++ [name]) entry).WellFormed := by
  have hroot : directory ++ [name] ≠ [] := by simp
  have hkept : ∀ {l}, v.lookup l = some .directory →
      (v.put (directory ++ [name]) entry).lookup l = some .directory := by
    intro l hl
    have hne : l ≠ directory ++ [name] := by
      rintro rfl
      exact hkind hl
    rw [lookup_put hroot, if_neg hne, hl]
  have hlocation : ∀ e ∈ (v.put (directory ++ [name]) entry).entries,
      e.1 = directory ++ [name] ∨ ∃ old ∈ v.entries, old.1 = e.1 := by
    intro e he
    have hmem : e.1 ∈ (Volume.putEntry (directory ++ [name]) entry v.entries).map (·.1) :=
      List.mem_map_of_mem he
    by_cases hlisted : directory ++ [name] ∈ v.entries.map (·.1)
    · rw [map_fst_putEntry_of_mem hlisted] at hmem
      exact .inr (List.mem_map.1 hmem)
    · rw [map_fst_putEntry_of_not_mem hlisted, List.mem_append, List.mem_singleton] at hmem
      exact hmem.symm.imp_right List.mem_map.1
  refine ⟨hv.distinct.put hroot entry, fun e he => ?_, fun e he => ?_, fun l hl => ?_⟩
  · obtain hnew | ⟨old, hold, heq⟩ := hlocation e he
    · rw [hnew, List.forall_mem_append]
      exact ⟨hv.isName_of_lookup hdirectory, List.forall_mem_singleton.2 hname⟩
    · exact heq ▸ hv.isName old hold
  · obtain hnew | ⟨old, hold, heq⟩ := hlocation e he
    · rw [hnew, List.dropLast_concat]
      exact hkept hdirectory
    · exact hkept (heq ▸ hv.inDirectory old hold)
  · exact hkept (hv.closed l hl)

end Volume.WellFormed

/-! ## What is below -/

/-- **What is below a location is what names lead to from there.** -/
theorem mem_below_iff (hv : v.Distinct) :
    names ∈ v.below location ↔
      names = [] ∨ ∃ entry, v.lookup (location ++ names) = some entry := by
  unfold Volume.below Volume.namesBelow
  rw [List.mem_mergeSort, List.mem_cons, List.mem_filter, List.mem_filterMap]
  by_cases hnil : names = []
  · simp [hnil]
  have hroot : location ++ names ≠ [] := by simp [hnil]
  simp only [hnil, false_or, not_false_eq_true, ne_eq, decide_true, and_true,
    List.isPrefixOf?_eq_some_iff_append_eq]
  constructor
  · rintro ⟨⟨l, entry⟩, hmem, rfl⟩
    exact ⟨entry, (mem_entries_iff hv hroot).1 hmem⟩
  · rintro ⟨entry, hentry⟩
    exact ⟨_, (mem_entries_iff hv hroot).2 hentry, rfl⟩

theorem nodup_below (hv : v.Distinct) (location : Location) : (v.below location).Nodup := by
  have hlocations := List.pairwise_map.1 (List.nodup_cons.1 hv).2
  unfold Volume.below Volume.namesBelow
  rw [(List.mergeSort_perm _ _).nodup_iff, List.nodup_cons]
  refine ⟨by simp, List.Nodup.filter _ ?_⟩
  rw [List.Nodup, List.pairwise_filterMap]
  refine hlocations.imp fun hne names hnames others hothers heq => hne ?_
  rw [← List.append_eq_of_isPrefixOf?_eq_some hnames,
    ← List.append_eq_of_isPrefixOf?_eq_some hothers, heq]

theorem sorted_below (v : Volume) (location : Location) : (v.below location).Pairwise (· ≤ ·) :=
  pairwise_mergeSort_key id _

/-! ## Paths that go on by names -/

/-- What stands before the names that a path goes on by. After a single dot that is nothing. -/
def Path.front (p : Path) : Path :=
  if p.components = [.current] then ⟨[]⟩ else p

theorem pushNames_eq_foldl (p : Path) (names : List Name) :
    pushNames p names = names.foldl Path.push p.front :=
  rfl

/-- Such a path is relative, and stays where it starts. -/
theorem stays_of_components (h : p.components = [.current]) :
    p.isAbsolute = false ∧ ∀ part ∈ p.parts, part = [] ∨ part = [dot] := by
  have hnone : ∀ {part : Name}, Path.Component.ofPart? part = none → part = [] ∨ part = [dot] := by
    intro part hpart
    unfold Path.Component.ofPart? at hpart
    split at hpart
    · assumption
    split at hpart <;> cases hpart
  unfold Path.components at h
  split at h
  · cases h
  rename_i habsolute
  refine ⟨Bool.eq_false_iff.2 habsolute, ?_⟩
  split at h
  · cases h
  rename_i first rest hparts
  rw [hparts]
  split at h
  · rename_i hfirst
    have hrest := List.filterMap_eq_nil_iff.1 (List.cons.inj h).2
    exact List.forall_mem_cons.2 ⟨.inr hfirst, fun part hpart => hnone (hrest part hpart)⟩
  · -- a single dot further on is no step
    have hmem : Path.Component.current ∈ (first :: rest).filterMap Path.Component.ofPart? := by
      rw [h]
      exact List.mem_singleton_self _
    obtain ⟨part, -, hpart⟩ := List.mem_filterMap.1 hmem
    exact absurd hpart (ofPart?_ne_current part)

theorem eq_of_follow_stay {parts : List Name} (hstay : ∀ part ∈ parts, part = [] ∨ part = [dot])
    (h : v.follow location parts = .ok found) : found = location := by
  by_cases hne : parts = []
  · rw [hne] at h
    cases h
    rfl
  · have hdirectory := directory_of_follow hne h
    exact Except.ok.inj (h.symm.trans (follow_of_stay hdirectory hstay))

/-- What stands before the names leads where the path leads. -/
theorem follow_front (h : v.resolve p = .ok location) :
    v.follow (v.startOf p.front) p.front.base = .ok location := by
  have hfollow := (resolve_eq_ok_iff.1 h).2
  unfold Path.front
  split
  · rename_i hcurrent
    obtain ⟨habsolute, hstay⟩ := stays_of_components hcurrent
    rw [eq_of_follow_stay hstay hfollow, Volume.startOf, Volume.startOf, habsolute]
    rfl
  · rcases parts_eq_base p with hparts | hparts
    · rwa [hparts] at hfollow
    · -- a slash at the end leads no further
      rw [hparts] at hfollow
      obtain ⟨before, hbase, hend⟩ := follow_append_eq_ok hfollow
      rwa [eq_of_follow_stay (by simp) hend]

/-- **A path that goes on by names leads down to what is there.** -/
theorem resolve_pushNames (hv : v.WellFormed) (h : v.resolve p = .ok location) (hne : names ≠ [])
    (hlookup : v.lookup (location ++ names) = some entry) :
    v.resolve (pushNames p names) = .ok (location ++ names) := by
  have hnames : ∀ name ∈ names, IsName name := fun name hname =>
    hv.isName_of_lookup hlookup name (List.mem_append_right _ hname)
  have hparts := parts_foldl_push hnames hne p.front
  have hstart : v.startOf (names.foldl Path.push p.front) = v.startOf p.front := by
    rw [Volume.startOf, Volume.startOf, isAbsolute_foldl_push hnames]
  have hbytes : (names.foldl Path.push p.front).bytes ≠ [] := by
    intro hempty
    have hbase := base_foldl_push hnames p.front
    rw [Path.base, if_pos (.inl hempty), Path.parts, hempty] at hbase
    exact hne (List.append_eq_nil_iff.1 hbase.symm).2
  rw [pushNames_eq_foldl]
  refine resolve_eq_ok_iff.2 ⟨hbytes, ?_⟩
  rw [hstart, hparts, follow_append, follow_front h]
  exact hv.follow_of_lookup hlookup

end ValueClass
