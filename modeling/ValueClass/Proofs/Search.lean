import Mathlib.Data.List.Forall2
import ValueClass.Proofs.Inventory

/-!
# What a search finds

A search goes to the directory of its pattern part by part, and on from there. However the directory
is spelled, with single or double dots, with slashes too many, relative or absolute, it comes to
where the directory leads. Only what comes after single dots at the beginning must not be empty.

* `steps_of_follow`: **the steps come to where the parts lead**, unless a directory has to be listed
  on the way and cannot be.
* `exists_error_mem_search_iff`: **a search comes to an error exactly if a directory cannot be
  listed** that is where it goes, or below.
* `Volume.Listable`: all directories that a search has to list can be listed.
* `SearchContract`: **what a search must find**: each entry with the ending once, by a path that
  goes on from the directory by names, or else a directory that cannot be listed.
* `search_meets_contract`: this is what it finds.
* `declarationPaths_eq`: **declarations are the files with the ending that the search reaches**, so
  their paths lead to such files (`exists_file_of_mem_declarationPaths`).
-/

namespace ValueClass

open Text

variable {v : Volume} {p here base : Path} {location found root : Location} {name part : Name}
  {names parts : List Name} {taken : List Path.Component} {ending : Name}

/-! ## Steps -/

/-- The steps have come to a location. A single dot in front is not one of them. -/
structure Arrived (v : Volume) (taken : List Path.Component) (here : Path) (location : Location) :
    Prop where
  resolve : v.resolve here = .ok location
  components : here.front.components = taken
  current : here.components = [.current] ∨ .current ∉ here.components

theorem step_eq (hslash : slash ∉ part) (here : Path) :
    step v here part =
      if part = [dot] ∨ part = [dot, dot] then
        if v.isDirectory here then some (here.front.push part) else none
      else if v.exists? (here.front.push part) then some (here.front.push part)
      else none := by
  have hnext : (if here.components = [.current] then (⟨part⟩ : Path) else here.push part)
      = here.front.push part := by
    unfold Path.front
    split
    · rw [push_of_not_mem hslash]
      rfl
    · rfl
  unfold step
  dsimp only
  rw [hnext]

theorem base_ne_nil (h : p.bytes ≠ []) : p.base ≠ [] := by
  unfold Path.base
  split
  · rename_i hend
    obtain ⟨before, hbefore⟩ := List.getLast?_eq_some_iff.1 (hend.resolve_left h)
    rw [Path.parts, hbefore, List.splitOn_append_cons_self,
      show List.splitOn slash ([] : List UInt8) = [[]] from rfl, List.dropLast_concat]
    exact parts_ne_nil ⟨before⟩
  · exact parts_ne_nil p

/-- After the beginning, a single dot is no step. -/
theorem components_push_dot (h : p.bytes ≠ []) : (p.push [dot]).components = p.components := by
  obtain ⟨first, rest, hbase⟩ := List.exists_cons_of_ne_nil (base_ne_nil h)
  rw [components_eq_stepsOf, isAbsolute_push (by decide), parts_push (by decide),
    components_eq_base p, hbase]
  have hconcat : ∀ front : List Name, (front ++ [[dot]]).filterMap Path.Component.ofPart? =
      front.filterMap Path.Component.ofPart? := by
    intro front
    rw [List.filterMap_append]
    exact List.append_nil _
  unfold stepsOf
  cases p.isAbsolute with
  | true => exact congrArg (.root :: ·) (hconcat (first :: rest))
  | false =>
    by_cases hfirst : first = [dot]
    · simp only [List.cons_append, hfirst, if_true]
      exact congrArg (.current :: ·) (hconcat rest)
    · simp only [List.cons_append, hfirst, if_false]
      exact hconcat (first :: rest)

theorem exists_lookup_of_follow (h : v.follow location [part] = .ok found)
    (hup : part ≠ [dot, dot]) : ∃ entry, v.lookup found = some entry := by
  have hdirectory := directory_of_follow (List.cons_ne_nil _ _) h
  rw [Volume.follow, if_neg (not_not.2 hdirectory)] at h
  split at h
  · cases h
    exact ⟨_, hdirectory⟩
  split at h
  · cases h
  · rename_i entry hentry
    cases h
    exact ⟨entry, hentry⟩

namespace Arrived

variable {here : Path}

theorem of_components (hresolve : v.resolve p = .ok found) (hcomponents : p.components = taken)
    (hcurrent : .current ∉ taken) : Arrived v taken p found ∧ p.components ≠ [.current] := by
  have hne : p.components ≠ [.current] := by
    rw [hcomponents]
    rintro rfl
    exact hcurrent List.mem_cons_self
  refine ⟨⟨hresolve, ?_, .inr (hcomponents ▸ hcurrent)⟩, hne⟩
  rw [Path.front, if_neg hne, hcomponents]

theorem current_not_mem (h : Arrived v taken here location) : .current ∉ taken := by
  rw [← h.components]
  unfold Path.front
  split
  · exact List.not_mem_nil
  · rename_i hother
    exact h.current.resolve_left hother

theorem resolve_push (h : Arrived v taken here location) (hslash : slash ∉ part)
    (hpart : here.components = [.current] → part ≠ [])
    (hfollow : v.follow location [part] = .ok found) :
    v.resolve (here.front.push part) = .ok found := by
  have hbytes : (here.front.push part).bytes ≠ [] := by
    have hhere := (resolve_eq_ok_iff.1 h.resolve).1
    rw [push_of_not_mem hslash]
    unfold Path.front
    split
    · rename_i hdot
      simp [hpart hdot]
    · split <;> simp [hhere]
  have hstart : v.startOf (here.front.push part) = v.startOf here.front := by
    rw [Volume.startOf, Volume.startOf, isAbsolute_push hslash]
  refine resolve_eq_ok_iff.2 ⟨hbytes, ?_⟩
  rw [hstart, parts_push hslash, follow_append, follow_front h.resolve]
  exact hfollow

theorem step_eq_some (h : Arrived v taken here location) (hslash : slash ∉ part)
    (hpart : here.components = [.current] → part ≠ [])
    (hfollow : v.follow location [part] = .ok found) :
    ValueClass.step v here part = some (here.front.push part) := by
  rw [step_eq hslash]
  split
  · have hdirectory := directory_of_follow (List.cons_ne_nil _ _) hfollow
    rw [if_pos (isDirectory_iff.2 ⟨location, h.resolve, hdirectory⟩)]
  · rename_i hname
    obtain ⟨entry, hentry⟩ := exists_lookup_of_follow hfollow (not_or.1 hname).2
    have hresolve := h.resolve_push hslash hpart hfollow
    rw [if_pos (exists?_iff.2 ⟨found, entry, hresolve, hentry⟩)]

/-- **The walk takes one part the way a path does.** -/
theorem step (h : Arrived v taken here location) (hslash : slash ∉ part)
    (hpart : here.components = [.current] → part ≠ [])
    (hfollow : v.follow location [part] = .ok found) :
    ∃ next, ValueClass.step v here part = some next ∧
      Arrived v (taken ++ (Path.Component.ofPart? part).toList) next found ∧
      (next.components = [.current] → here.components = [.current] ∧ part = [dot]) := by
  have hresolve := h.resolve_push hslash hpart hfollow
  refine ⟨_, h.step_eq_some hslash hpart hfollow, ?_⟩
  by_cases hdots : here.components = [.current] ∧ part = [dot]
  · -- one more single dot in front is still no step
    obtain ⟨hhere, rfl⟩ := hdots
    have hfront : here.front = ⟨[]⟩ := if_pos hhere
    have hnext : ((⟨[]⟩ : Path).push [dot]).components = [.current] := by decide
    have htaken : taken = [] := by
      rw [← h.components, hfront]
      rfl
    rw [hfront] at hresolve ⊢
    refine ⟨⟨hresolve, ?_, .inl hnext⟩, fun _ => ⟨hhere, rfl⟩⟩
    rw [Path.front, if_pos hnext, htaken]
    rfl
  · have hcurrent : .current ∉ taken ++ (Path.Component.ofPart? part).toList := by
      rw [List.mem_append, Option.mem_toList, not_or]
      exact ⟨h.current_not_mem, ofPart?_ne_current part⟩
    have hcomponents : (here.front.push part).components
        = taken ++ (Path.Component.ofPart? part).toList := by
      by_cases hdot : part = [dot]
      · subst hdot
        have hfront : here.front = here := if_neg fun hhere => hdots ⟨hhere, rfl⟩
        have htaken := h.components
        rw [hfront] at htaken ⊢
        rw [components_push_dot (resolve_eq_ok_iff.1 h.resolve).1, htaken]
        exact (List.append_nil taken).symm
      · rw [components_push hslash hdot, h.components]
    obtain ⟨harrived, hne⟩ := of_components hresolve hcomponents hcurrent
    exact ⟨harrived, fun heq => absurd heq hne⟩

end Arrived

/-- A step is taken only from where something is. -/
theorem exists_resolve_of_step {next : Path} (hslash : slash ∉ part) (hbytes : here.bytes ≠ [])
    (h : step v here part = some next) :
    next.bytes ≠ [] ∧ ∃ location, v.resolve here = .ok location := by
  rw [step_eq hslash] at h
  split at h
  · rename_i hdots
    obtain ⟨hdirectory, hnext⟩ := Option.ite_none_right_eq_some.1 h
    cases hnext
    obtain ⟨location, hlocation, -⟩ := isDirectory_iff.1 hdirectory
    have hne : part ≠ [] := by
      rintro rfl
      exact absurd hdots (by decide)
    refine ⟨?_, location, hlocation⟩
    rw [push_of_not_mem hslash]
    split <;> simp [hne]
  · obtain ⟨hexists, hnext⟩ := Option.ite_none_right_eq_some.1 h
    cases hnext
    obtain ⟨found, -, hfound, -⟩ := exists?_iff.1 hexists
    obtain ⟨hnext, hfollow⟩ := resolve_eq_ok_iff.1 hfound
    rw [Volume.startOf, isAbsolute_push hslash, ← Volume.startOf, parts_push hslash] at hfollow
    obtain ⟨location, hfront, hlast⟩ := follow_append_eq_ok hfollow
    have hdirectory := directory_of_follow (List.cons_ne_nil _ _) hlast
    refine ⟨hnext, location, resolve_eq_ok_iff.2 ⟨hbytes, ?_⟩⟩
    -- after what stands in front the path only stays where it is
    unfold Path.front at hfront
    split at hfront
    · rename_i hcurrent
      obtain ⟨habsolute, hstay⟩ := stays_of_components hcurrent
      cases hfront
      rw [Volume.startOf, habsolute]
      exact follow_of_stay hdirectory hstay
    · rcases parts_eq_base here with hparts | hparts
      · rw [hparts]
        exact hfront
      · rw [hparts, follow_append, hfront]
        exact follow_of_stay hdirectory (by simp)

/-! ## Directories on the way -/

/-- No part with a wildcard is looked for in a directory that cannot be listed. -/
def Volume.WayOpen (v : Volume) (location : Location) : List Name → Prop
  | [] => True
  | part :: rest =>
    (part.any Pattern.isWild = true → location ∉ v.closed) ∧
      ∀ next, v.follow location [part] = .ok next → v.WayOpen next rest

instance Volume.decidableWayOpen (v : Volume) :
    ∀ (location : Location) (parts : List Name), Decidable (v.WayOpen location parts)
  | _, [] => inferInstanceAs (Decidable True)
  | location, part :: rest =>
    have : Decidable (∀ next, v.follow location [part] = .ok next → v.WayOpen next rest) :=
      match v.follow location [part] with
      | .error _ => isTrue nofun
      | .ok next =>
        have := v.decidableWayOpen next rest
        decidable_of_iff (v.WayOpen next rest)
          ⟨fun hopen _ heq => Except.ok.inj heq ▸ hopen, fun hall => hall next rfl⟩
    inferInstanceAs (Decidable (_ ∧ _))

theorem wayOpen_append (hempty : ∀ part ∈ names, part = []) :
    v.WayOpen location (parts ++ names) ↔ v.WayOpen location parts := by
  induction parts generalizing location with
  | nil =>
    refine iff_of_true ?_ trivial
    induction names generalizing location with
    | nil => trivial
    | cons part rest ih =>
      obtain ⟨rfl, hrest⟩ := List.forall_mem_cons.1 hempty
      exact ⟨fun hwild => absurd hwild (by decide), fun next _ => ih hrest⟩
  | cons part rest ih =>
    rw [List.cons_append, Volume.WayOpen, Volume.WayOpen]
    exact and_congr_right fun _ => forall_congr' fun next => imp_congr_right fun _ => ih

theorem isClosed_of_resolve (h : v.resolve p = .ok location) :
    v.isClosed p = true ↔ location ∈ v.closed := by
  rw [Volume.isClosed, h]
  exact List.contains_iff_mem

/-- **The steps come to where the parts lead**, unless a directory has to be listed on the way and
cannot be. -/
theorem steps_of_follow (h : Arrived v taken here location)
    (hslash : ∀ part ∈ parts, slash ∉ part)
    (hdots : here.components = [.current] → (parts.dropWhile (· = [dot])).head? ≠ some [])
    (hfollow : v.follow location parts = .ok found) :
    (v.WayOpen location parts ∧ ∃ base, steps v here (parts.map .ofName) = .ok (some base) ∧
        Arrived v (taken ++ parts.filterMap Path.Component.ofPart?) base found) ∨
      ¬v.WayOpen location parts ∧ ∃ q, steps v here (parts.map .ofName) = .error q := by
  induction parts generalizing here taken location with
  | nil =>
    cases hfollow
    exact .inl ⟨trivial, here, rfl, by rwa [List.filterMap_nil, List.append_nil]⟩
  | cons part rest ih =>
    rw [List.map_cons, steps]
    by_cases hguard : ((PatternPart.ofName part).bracketed && v.isClosed here) = true
    · rw [if_pos hguard]
      obtain ⟨hwild, hclosed⟩ := Bool.and_eq_true_iff.1 hguard
      exact .inr ⟨fun hopen => hopen.1 hwild ((isClosed_of_resolve h.resolve).1 hclosed), here, rfl⟩
    rw [if_neg hguard]
    obtain ⟨hfirst, hrest⟩ := List.forall_mem_cons.1 hslash
    rw [← List.singleton_append] at hfollow
    obtain ⟨there, hpart, hfollow⟩ := follow_append_eq_ok hfollow
    -- only while the steps are still at a single dot does it matter what comes next
    have hne : here.components = [.current] → part ≠ [] := by
      rintro hcurrent rfl
      exact hdots hcurrent rfl
    obtain ⟨next, hstep, harrived, hagain⟩ := h.step hfirst hne hpart
    have hdots' : next.components = [.current] → (rest.dropWhile (· = [dot])).head? ≠ some [] := by
      intro hcurrent
      obtain ⟨hhere, rfl⟩ := hagain hcurrent
      exact hdots hhere
    have hopen : v.WayOpen location (part :: rest) ↔ v.WayOpen there rest := by
      refine ⟨fun h => h.2 there hpart, fun hrest => ⟨fun hwild hclosed => hguard ?_, ?_⟩⟩
      · exact Bool.and_eq_true_iff.2 ⟨hwild, (isClosed_of_resolve h.resolve).2 hclosed⟩
      · intro other hother
        rwa [← Except.ok.inj (hpart.symm.trans hother)]
    have hfirst : (PatternPart.ofName part).name = part := rfl
    rw [hopen, hfirst, hstep]
    refine (ih harrived hrest hdots' hfollow).imp_left ?_
    rintro ⟨hway, base, hbase, hend⟩
    refine ⟨hway, base, hbase, ?_⟩
    rw [List.append_assoc] at hend
    rw [List.filterMap_cons]
    cases hcomponent : Path.Component.ofPart? part with
    | none =>
      rw [hcomponent] at hend
      exact hend
    | some component =>
      rw [hcomponent] at hend
      exact hend

/-! ## Spellings of a directory -/

/-- The path without the slashes at its end. -/
def Path.trimmed (p : Path) : List UInt8 :=
  (p.bytes.reverse.dropWhile (· = slash)).reverse

theorem filter_components (p : Path) :
    p.components.filter (· ≠ .current) =
      (if p.isAbsolute then [.root] else []) ++ p.parts.filterMap Path.Component.ofPart? := by
  have hkept : ∀ front : List Name,
      (front.filterMap Path.Component.ofPart?).filter (· ≠ .current)
        = front.filterMap Path.Component.ofPart? := by
    intro front
    refine List.filter_eq_self.2 fun component hmem => ?_
    obtain ⟨part, -, hpart⟩ := List.mem_filterMap.1 hmem
    refine decide_eq_true ?_
    rintro rfl
    exact ofPart?_ne_current part hpart
  obtain ⟨first, rest, hparts⟩ := List.exists_cons_of_ne_nil (parts_ne_nil p)
  unfold Path.components
  split
  · rw [List.filter_cons_of_pos (by decide), hkept]
    rfl
  · rw [hparts, List.nil_append]
    by_cases hfirst : first = [dot]
    · simp only [hfirst, if_true]
      rw [List.filter_cons_of_neg (by decide), hkept]
      rfl
    · simp only [hfirst, if_false]
      exact hkept (first :: rest)

theorem exists_bytes_eq_trimmed (p : Path) :
    ∃ ends, p.bytes = p.trimmed ++ ends ∧ ∀ b ∈ ends, b = slash := by
  obtain ⟨ends, hbytes, hends⟩ := exists_end_eq (· = slash) p.bytes
  exact ⟨ends, hbytes, fun b hb => of_decide_eq_true (hends b hb)⟩

/-- Slashes at the end add empty parts. -/
theorem exists_parts_eq_trimmed (p : Path) :
    ∃ ends, p.parts = List.splitOn slash p.trimmed ++ ends ∧ ∀ part ∈ ends, part = [] := by
  obtain ⟨ends, hbytes, hends⟩ := exists_bytes_eq_trimmed p
  cases ends with
  | nil => exact ⟨[], by rw [Path.parts, hbytes, List.append_nil, List.append_nil], nofun⟩
  | cons b ends =>
    obtain ⟨rfl, hrest⟩ := List.forall_mem_cons.1 hends
    refine ⟨List.splitOn slash ends, ?_, fun part hpart => ?_⟩
    · rw [Path.parts, hbytes, List.splitOn_append_cons_self]
    refine List.eq_nil_iff_forall_not_mem.2 fun b hb => not_mem_of_mem_splitOn hpart ?_
    rw [← hrest b (mem_of_mem_splitOn hpart hb)]
    exact hb

theorem isAbsolute_iff_trimmed (h : p.bytes ≠ []) :
    p.isAbsolute = true ↔ ∀ b ∈ p.trimmed.head?, b = slash := by
  obtain ⟨slashes, hbytes, hall⟩ := exists_bytes_eq_trimmed p
  rw [Path.isAbsolute, hbytes]
  cases hfirst : p.trimmed with
  | nil =>
    rw [hfirst, List.nil_append] at hbytes
    obtain ⟨b, rest, rfl⟩ := List.exists_cons_of_ne_nil (hbytes ▸ h)
    simp [hall b List.mem_cons_self]
  | cons b rest => simp

/-- Without the slashes at its end a path leads to the same place. -/
theorem follow_trimmed (h : v.resolve p = .ok root) :
    v.follow (v.startOf p) (List.splitOn slash p.trimmed) = .ok root := by
  obtain ⟨ends, hparts, hempty⟩ := exists_parts_eq_trimmed p
  have hfollow := (resolve_eq_ok_iff.1 h).2
  rw [hparts] at hfollow
  obtain ⟨before, hbefore, hend⟩ := follow_append_eq_ok hfollow
  rwa [eq_of_follow_stay (fun part hpart => .inl (hempty part hpart)) hend]

theorem filter_components_trimmed (p : Path) :
    p.components.filter (· ≠ .current) =
      (if p.isAbsolute then [.root] else [])
        ++ (List.splitOn slash p.trimmed).filterMap Path.Component.ofPart? := by
  obtain ⟨ends, hparts, hempty⟩ := exists_parts_eq_trimmed p
  have hnone : ends.filterMap Path.Component.ofPart? = [] :=
    List.filterMap_eq_nil_iff.2 fun part hpart => by rw [hempty part hpart]; rfl
  rw [filter_components, hparts, List.filterMap_append, hnone, List.append_nil]

/-- What comes after single dots at the beginning is not empty. -/
def Path.PlainStart (p : Path) : Prop :=
  p.isAbsolute = false → ((List.splitOn slash p.trimmed).dropWhile (· = [dot])).head? ≠ some []

/-- **However a directory is spelled, a search comes to where it leads**, unless a directory has to
be listed on the way and cannot be. -/
theorem walk_of_resolve (hstart : p.PlainStart) (h : v.resolve p = .ok root) (ending : Name) :
    (v.WayOpen (v.startOf p) p.parts ∧
        ∃ base, walk v (.ofDirectory p.trimmed ending) = .ok (some base) ∧
          Arrived v (p.components.filter (· ≠ .current)) base root) ∨
      ¬v.WayOpen (v.startOf p) p.parts ∧
        ∃ q, walk v (.ofDirectory p.trimmed ending) = .error q := by
  have hpieces : ∀ {bs : List UInt8}, ∀ part ∈ List.splitOn slash bs, slash ∉ part :=
    fun part hpart => not_mem_of_mem_splitOn hpart
  have hslash : Arrived v [.root] ⟨[slash]⟩ [] := ⟨rfl, by decide, by decide⟩
  have hfollow := follow_trimmed h
  have habsolute := isAbsolute_iff_trimmed (resolve_eq_ok_iff.1 h).1
  obtain ⟨ends, hparts, hempty⟩ := exists_parts_eq_trimmed p
  rw [hparts, wayOpen_append hempty, filter_components_trimmed]
  rw [Volume.startOf] at hfollow ⊢
  cases hfirst : p.trimmed with
  | nil =>
    -- the root directory itself
    rw [hfirst] at hfollow habsolute
    rw [habsolute.2 (by simp)] at hfollow ⊢
    rw [eq_of_follow_stay (by simp) hfollow]
    exact .inl ⟨⟨fun hwild => absurd hwild (by decide), fun _ _ => trivial⟩, _, rfl, hslash⟩
  | cons b rest =>
    rw [hfirst] at hfollow habsolute
    by_cases hb : b = slash
    · subst hb
      rw [habsolute.2 (by simp), splitOn_cons_self] at hfollow ⊢
      rw [walk, Pattern.ofDirectory, if_pos rfl]
      have hopen : v.WayOpen [] ([] :: List.splitOn slash rest)
          ↔ v.WayOpen [] (List.splitOn slash rest) :=
        ⟨fun h => h.2 [] rfl,
          fun h => ⟨fun hwild => absurd hwild (by decide), by rintro _ ⟨⟩; exact h⟩⟩
      have hsteps := steps_of_follow hslash hpieces (fun hdot => absurd hdot (by decide)) hfollow
      have hroot : ([] :: List.splitOn slash rest).filterMap Path.Component.ofPart?
          = (List.splitOn slash rest).filterMap Path.Component.ofPart? := rfl
      simpa only [if_true, hopen, hroot] using hsteps
    · -- the steps start at a single dot, and the path where that leads
      have hrelative : p.isAbsolute = false :=
        eq_false_of_ne_true fun htrue => hb (habsolute.1 htrue b rfl)
      rw [hrelative] at hfollow ⊢
      have hworking := directory_of_follow (parts_ne_nil ⟨b :: rest⟩) hfollow
      have hdot : Arrived v [] ⟨[dot]⟩ v.working :=
        ⟨follow_of_stay hworking (by decide), by decide, by decide⟩
      have hdots := hstart hrelative
      rw [hfirst] at hdots
      rw [walk, Pattern.ofDirectory, if_neg hb]
      exact steps_of_follow hdot hpieces (fun _ => hdots) hfollow

/-! ## What is found -/

theorem hasEnding_iff :
    hasEnding ending names = true ↔
      ∃ front name, names = front ++ [name] ∧ (ofUtf8? name).isSome ∧ ending <:+ name := by
  unfold hasEnding
  rcases List.eq_nil_or_concat' names with rfl | ⟨front, name, rfl⟩
  · simp
  · simp [List.isSuffixOf_iff_suffix]

theorem ne_nil_of_hasEnding (h : hasEnding ending names = true) : names ≠ [] := by
  obtain ⟨front, name, rfl, -, -⟩ := hasEnding_iff.1 h
  simp

theorem reaches_iff :
    v.reaches location names = true ↔
      ∀ n < names.length, location ++ names.take n ∉ v.closed := by
  simp [Volume.reaches]

theorem exists_error_of_closed (h : location ++ names ∈ v.closed) :
    ∃ q, .error q ∈ v.foundAt base location ending names := by
  unfold Volume.foundAt
  dsimp only
  rw [if_pos (List.contains_iff_mem.2 h)]
  exact ⟨_, List.mem_append_right _ (List.mem_singleton_self _)⟩

theorem closed_of_error_mem_foundAt (h : .error p ∈ v.foundAt base location ending names) :
    location ++ names ∈ v.closed := by
  unfold Volume.foundAt at h
  dsimp only at h
  rw [List.mem_append, List.mem_ite_nil_right, List.mem_ite_nil_right] at h
  obtain ⟨-, hp⟩ | ⟨hclosed, -⟩ := h
  · simp at hp
  · exact List.contains_iff_mem.1 hclosed

theorem foundAt_of_not_closed (h : location ++ names ∉ v.closed) :
    v.foundAt base location ending names =
      if hasEnding ending names then [.ok (pushNames base names)] else [] := by
  unfold Volume.foundAt
  dsimp only
  rw [if_neg (mt List.contains_iff_mem.1 h), List.append_nil]
  split
  · rename_i hending
    rw [if_neg (ne_nil_of_hasEnding hending)]
  · rfl

/-- Where directories are that cannot be listed, one of them is reached. -/
theorem exists_reached_of_closed (h : root ++ names ∈ v.closed) :
    ∃ names, root ++ names ∈ v.closed ∧ v.reaches root names = true := by
  induction hlength : names.length using Nat.strongRecOn generalizing names with
  | ind length ih =>
    by_cases hreached : v.reaches root names = true
    · exact ⟨names, h, hreached⟩
    · -- one that is further up keeps it from being reached
      rw [reaches_iff] at hreached
      push Not at hreached
      obtain ⟨n, hn, hclosed⟩ := hreached
      exact ih _ (by rw [List.length_take]; omega) hclosed rfl

section Walked

variable {pattern : Pattern} (hwalk : walk v pattern = .ok (some base))
  (hbase : v.resolve base = .ok location)
include hwalk hbase

/-- **A search comes to an error exactly if a directory cannot be listed that is where it goes, or
below.** -/
theorem exists_error_mem_search_iff (hv : v.WellFormed) :
    (∃ q, .error q ∈ v.search pattern) ↔ ∃ names, location ++ names ∈ v.closed := by
  rw [search_of_walk hwalk hbase]
  constructor
  · rintro ⟨q, hq⟩
    obtain ⟨names, -, hq⟩ := List.mem_flatMap.1 hq
    exact ⟨names, closed_of_error_mem_foundAt hq⟩
  · rintro ⟨names, hclosed⟩
    obtain ⟨names, hclosed, hreached⟩ := exists_reached_of_closed hclosed
    obtain ⟨q, hq⟩ := exists_error_of_closed hclosed
    have hbelow := (mem_below_iff hv.distinct).2 (.inr ⟨_, hv.closed _ hclosed⟩)
    exact ⟨q, List.mem_flatMap.2 ⟨names, List.mem_filter.2 ⟨hbelow, hreached⟩, hq⟩⟩

/-- Where all can be listed, all entries with the ending are found. -/
theorem search_of_open (hopen : ∀ names, location ++ names ∉ v.closed) :
    v.search pattern = ((v.below location).filter (hasEnding pattern.ending)).map
      fun names => .ok (pushNames base names) := by
  have hall : (v.below location).filter (v.reaches location) = v.below location :=
    List.filter_eq_self.2 fun names _ => reaches_iff.2 fun n _ => hopen _
  rw [search_of_walk hwalk hbase, hall, ← flatMap_ite]
  exact List.flatMap_congr fun names _ => foundAt_of_not_closed (hopen names)

end Walked

/-! ## The contract -/

/-- All directories that a search below a path has to list can be listed: those in which a part with
a wildcard is looked for, and those at or below where the path leads. -/
structure Volume.Listable (v : Volume) (directory : Path) : Prop where
  way : v.WayOpen (v.startOf directory) directory.parts
  below : ∀ root, v.resolve directory = .ok root → ∀ location ∈ v.closed, ¬root <+: location

/-- Names lead from a location to something whose own name is text and has an ending. -/
def Volume.Holds (v : Volume) (root : Location) (ending : Name) (names : List Name) : Prop :=
  (∃ entry, v.lookup (root ++ names) = some entry) ∧
    ∃ front name, names = front ++ [name] ∧ (ofUtf8? name).isSome ∧ ending <:+ name

/-- A path takes the steps of a directory, less the single dots, and goes on by names. So it leads
where these lead from the directory. -/
def LeadsBelow (v : Volume) (directory : Path) (root : Location) (names : List Name) (p : Path) :
    Prop :=
  p.components = directory.components.filter (· ≠ .current) ++ names.map .name ∧
    v.resolve p = .ok (root ++ names)

/-- **What a search must find** below a directory that leads to a location. If all directories that
have to be listed can be, that is each entry with the ending, once, by a path that goes on from the
directory. Else an error is among what it finds. -/
structure SearchContract (v : Volume) (directory : Path) (root : Location) (ending : Name)
    (found : List (Except Path Path)) : Prop where
  listed : v.Listable directory → ∃ entries : List (List Name), entries.Nodup ∧
    (∀ names, names ∈ entries ↔ v.Holds root ending names) ∧
    List.Forall₂ (fun names item => ∃ p, item = .ok p ∧ LeadsBelow v directory root names p)
      entries found
  unlisted : ¬v.Listable directory → ∃ q, .error q ∈ found

theorem leadsBelow_pushNames (hv : v.WellFormed)
    (harrived : Arrived v (p.components.filter (· ≠ .current)) base root)
    (h : v.Holds root ending names) : LeadsBelow v p root names (pushNames base names) := by
  obtain ⟨⟨entry, hentry⟩, front, name, hends, -⟩ := h
  have hne : names ≠ [] := by simp [hends]
  have hnames : ∀ name ∈ names, IsName name := fun name hname =>
    hv.isName_of_lookup hentry name (List.mem_append_right _ hname)
  refine ⟨?_, resolve_pushNames hv harrived.resolve hne hentry⟩
  rw [pushNames_eq_foldl, components_foldl_push hnames, harrived.components]

theorem mem_filter_hasEnding_iff (hv : v.WellFormed) :
    names ∈ (v.below root).filter (hasEnding ending) ↔ v.Holds root ending names := by
  rw [List.mem_filter, mem_below_iff hv.distinct, Volume.Holds, hasEnding_iff]
  refine and_congr_left fun hends => or_iff_right fun hnil => ?_
  obtain ⟨front, name, hnames, -⟩ := hends
  simp [hnil] at hnames

theorem not_listable_iff (hway : v.WayOpen (v.startOf p) p.parts) (h : v.resolve p = .ok root) :
    ¬v.Listable p ↔ ∃ names, root ++ names ∈ v.closed := by
  constructor
  · intro hnot
    by_contra hnone
    push Not at hnone
    refine hnot ⟨hway, fun there hthere location hclosed => ?_⟩
    cases hthere.symm.trans h
    rintro ⟨names, rfl⟩
    exact hnone names hclosed
  · rintro ⟨names, hclosed⟩ hlistable
    exact hlistable.below root h _ hclosed (List.prefix_append root names)

/-- **A search finds what it must find**, however the directory is spelled. -/
theorem search_meets_contract (hv : v.WellFormed) (hstart : p.PlainStart)
    (h : v.resolve p = .ok root) (ending : Name) :
    SearchContract v p root ending (v.search (.ofDirectory p.trimmed ending)) := by
  have hwalk := walk_of_resolve hstart h ending
  constructor
  · intro hlistable
    obtain ⟨-, base, hbase, harrived⟩ := hwalk.resolve_right fun hnot => hnot.1 hlistable.way
    have hopen := not_exists.1 (mt (not_listable_iff hlistable.way h).2 (not_not.2 hlistable))
    refine ⟨(v.below root).filter (hasEnding ending), (nodup_below hv.distinct root).filter _,
      fun names => mem_filter_hasEnding_iff hv, ?_⟩
    rw [search_of_open hbase harrived.resolve hopen, Pattern.ending_ofDirectory,
      List.forall₂_map_right_iff, List.forall₂_same]
    exact fun names hnames =>
      ⟨_, rfl, leadsBelow_pushNames hv harrived ((mem_filter_hasEnding_iff hv).1 hnames)⟩
  · intro hnot
    obtain ⟨hway, base, hbase, harrived⟩ | ⟨-, q, hq⟩ := hwalk
    · -- the way is open, so what cannot be listed is below
      exact (exists_error_mem_search_iff hbase harrived.resolve hv).2
        ((not_listable_iff hway h).1 hnot)
    · refine ⟨q, ?_⟩
      rw [Volume.search, hq]
      exact List.mem_singleton_self _

/-! ## Declarations -/

/-- Whether there is a file where names lead from a location. -/
def Volume.isFileAt (v : Volume) (root : Location) (names : List Name) : Bool :=
  match v.lookup (root ++ names) with
  | some (.file _) => true
  | _ => false

theorem isFileAt_iff :
    v.isFileAt root names = true ↔ ∃ content, v.lookup (root ++ names) = some (.file content) := by
  unfold Volume.isFileAt
  split <;> simp_all

theorem isFile_of_resolve (h : v.resolve p = .ok (root ++ names)) :
    v.isFile p = v.isFileAt root names := by
  rw [Volume.isFile, Volume.entry?, h]
  rfl

theorem filesAmong_append (as bs : List (Except Path Path)) :
    filesAmong v (as ++ bs) = filesAmong v as ++ filesAmong v bs :=
  List.filterMap_append

theorem filesAmong_foundAt :
    filesAmong v (v.foundAt base location ending names) =
      if hasEnding ending names && v.isFile (pushNames base names) then [pushNames base names]
      else [] := by
  unfold Volume.foundAt
  dsimp only
  have herror : ∀ {q : Path}, filesAmong v (if v.closed.contains (location ++ names) then [.error q]
      else []) = [] := by
    intro q
    split <;> rfl
  rw [filesAmong_append, herror, List.append_nil]
  cases hending : hasEnding ending names with
  | false => rfl
  | true =>
    rw [if_neg (ne_nil_of_hasEnding hending), if_pos rfl, Bool.true_and]
    by_cases hfile : v.isFile (pushNames base names) = true
    · rw [filesAmong_cons_of_isFile hfile, if_pos hfile]
      rfl
    · rw [filesAmong_cons_of_not_isFile hfile, if_neg hfile]
      rfl

/-- Whether a search for declarations comes to one by some names. -/
def Volume.declaresAt (v : Volume) (location : Location) (names : List Name) : Bool :=
  v.reaches location names && (hasEnding sourceEnding names && v.isFileAt location names)

variable {r : Roots}

theorem ending_sought (r : Roots) : r.sought.ending = sourceEnding := by
  rw [Roots.sought, Pattern.ending_ofDirectory]

/-- **Declarations are the files with the ending that the search reaches**, by the names that lead
to them. -/
theorem declarationPaths_eq (hv : v.WellFormed) (hwalk : walk v r.sought = .ok (some base))
    (hbase : v.resolve base = .ok location) :
    r.declarationPaths v
      = ((v.below location).filter (v.declaresAt location)).map (pushNames base) := by
  have hfiles : ∀ ns : List (List Name),
      filesAmong v (ns.flatMap (v.foundAt base location sourceEnding)) = ns.flatMap fun names =>
        if hasEnding sourceEnding names && v.isFile (pushNames base names) then
          [pushNames base names] else [] := by
    intro ns
    induction ns with
    | nil => rfl
    | cons names ns ih =>
      rw [List.flatMap_cons, List.flatMap_cons, filesAmong_append, filesAmong_foundAt, ih]
  rw [Roots.declarationPaths, search_of_walk hwalk hbase, ending_sought, hfiles, flatMap_ite,
    List.filter_filter]
  refine congrArg (List.map _) (List.filter_congr fun names hnames => ?_)
  rw [Volume.declaresAt, Bool.and_comm]
  refine congrArg _ ?_
  cases hending : hasEnding sourceEnding names with
  | false => rfl
  | true =>
    have hne := ne_nil_of_hasEnding hending
    obtain ⟨entry, hentry⟩ := ((mem_below_iff hv.distinct).1 hnames).resolve_left hne
    rw [isFile_of_resolve (resolve_pushNames hv hbase hne hentry)]

/-- Where there are declarations, the search comes to the source root. -/
theorem exists_walk_of_declarationPaths (h : r.declarationPaths v ≠ []) :
    ∃ base location, walk v r.sought = .ok (some base) ∧ v.resolve base = .ok location := by
  unfold Roots.declarationPaths Volume.search at h
  split at h
  · exact absurd rfl h
  · exact absurd rfl h
  rename_i base hbase
  split at h
  · exact absurd rfl h
  · rename_i location hlocation
    exact ⟨base, location, hbase, hlocation⟩

/-- A declaration is found at one of the paths of declarations. -/
theorem path_mem_of_declarations {sources : List Source} (h : r.declarations v = .ok sources) :
    ∀ s ∈ sources, s.path ∈ r.declarationPaths v := by
  obtain ⟨-, found, hfound, rfl⟩ := declarations_eq_ok_iff.1 h
  intro s hs
  refine forall_mem_right_of_forall₂ (P := fun s => s.path ∈ r.declarationPaths v)
    (sourcesAmong_eq_ok_iff.1 hfound).2 (fun p hp s hsource => ?_) s (List.mem_mergeSort.1 hs)
  obtain ⟨-, -, -, rfl⟩ := sourceAt_eq_ok_iff.1 hsource
  exact hp

/-- A declaration is at a path that goes on by names from where the search came to. -/
theorem exists_names_of_mem_declarationPaths (hv : v.WellFormed) (h : p ∈ r.declarationPaths v) :
    ∃ base location front name content, walk v r.sought = .ok (some base) ∧
      v.resolve base = .ok location ∧ p = pushNames base (front ++ [name]) ∧
      (ofUtf8? name).isSome ∧ sourceEnding <:+ name ∧
      v.lookup (location ++ (front ++ [name])) = some (.file content) := by
  obtain ⟨base, location, hwalk, hbase⟩ := exists_walk_of_declarationPaths (List.ne_nil_of_mem h)
  rw [declarationPaths_eq hv hwalk hbase] at h
  obtain ⟨names, hnames, rfl⟩ := List.mem_map.1 h
  obtain ⟨-, hdeclares⟩ := List.mem_filter.1 hnames
  obtain ⟨-, hends⟩ := Bool.and_eq_true_iff.1 hdeclares
  obtain ⟨hending, hfile⟩ := Bool.and_eq_true_iff.1 hends
  obtain ⟨front, name, rfl, htext, hending⟩ := hasEnding_iff.1 hending
  obtain ⟨content, hcontent⟩ := isFileAt_iff.1 hfile
  exact ⟨base, location, front, name, content, hwalk, hbase, rfl, htext, hending, hcontent⟩

/-- The path of a declaration leads to a file with the name of a declaration. -/
theorem exists_file_of_mem_declarationPaths (hv : v.WellFormed) (h : p ∈ r.declarationPaths v) :
    ∃ front name content, v.resolve p = .ok (front ++ [name]) ∧ sourceEnding <:+ name ∧
      v.lookup (front ++ [name]) = some (.file content) := by
  obtain ⟨base, location, front, name, content, -, hlocation, rfl, -, hending, hlookup⟩ :=
    exists_names_of_mem_declarationPaths hv h
  have hresolve := resolve_pushNames hv hlocation (by simp) hlookup
  rw [← List.append_assoc] at hlookup hresolve
  exact ⟨location ++ front, name, content, hresolve, hending, hlookup⟩

end ValueClass
