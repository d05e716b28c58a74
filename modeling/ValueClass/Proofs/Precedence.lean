import ValueClass.Proofs.Brackets
import ValueClass.Proofs.Ownership

/-!
# Precedence among claims

A scope is asked for names by one request after the other and settles each from what it holds at
that time. Types are written when all requests are settled, so that nothing a type was given may be
taken back by a later one.

* `Scope.Extends`: every name that has an owner keeps it.
* `extends_serve`, `extends_serveAll`: **no request takes a name from its owner**, and so no number
  of them does.
* `owner?_afterRequests`: the owner of a name is the first to mention it.
* `serve_of_owned`, `typeText_of_extends`: a type of which all names have owners changes nothing
  when it asks again, and is written in the same way from then on.
* `first_claim_wins`: **who owns a name, owns it for good**, and what follows for the answers to
  claims, for the imports and for the types.
-/

namespace ValueClass

/-- A type is written by what is written for its names. -/
theorem spell_congr {write other : String → String} {type : FieldType}
    (h : ∀ name ∈ type.names, write name = other name) : type.spell write = type.spell other := by
  induction type using FieldType.argumentInduction with
  | scalar kind => rfl
  | array element ih => exact congrArg (· ++ "[]") (ih h)
  | reference name arguments ih =>
    rw [FieldType.names, namesAll_eq_flatMap, List.forall_mem_cons] at h
    obtain ⟨hname, hnames⟩ := h
    have harguments : FieldType.spellAll write arguments = FieldType.spellAll other arguments := by
      rw [spellAll_eq_map, spellAll_eq_map]
      refine List.map_congr_left fun argument hmem => ih argument hmem fun n hn => ?_
      exact hnames n (List.mem_flatMap.2 ⟨argument, hmem, hn⟩)
    rw [FieldType.spell, FieldType.spell, hname, harguments]

namespace Java

/-! ## Requests -/

/-- What a scope can be asked for: a simple name for a package, or the names in a type. -/
inductive Request where
  | claim (package simple : String)
  | collect (type : FieldType)
  deriving DecidableEq, Repr

/-- The classes that a request mentions. Those of a type come in the order of its names, a class
before its arguments and those from left to right. -/
def Request.mentions : Request → List ClassName
  | .claim package simple => [⟨package, simple, ""⟩]
  | .collect type => type.names.filterMap ClassName.guess?

namespace Scope

/-- The scope after a request. -/
def serve (s : Scope) : Request → Scope
  | .claim package simple => s.claim package simple
  | .collect type => s.claimType type

/-- The scope after several requests, one after the other. -/
def serveAll (s : Scope) (requests : List Request) : Scope :=
  requests.foldl serve s

/-- The answer to a package that claims a simple name: whether it owns the name afterwards. -/
def grants (s : Scope) (package simple : String) : Bool :=
  (s.claim package simple).owns package simple

/-- The scope of a unit after the given requests. -/
def afterRequests (package name : String) (requests : List Request) : Scope :=
  (ofClass package name).serveAll requests

theorem serve_eq (s : Scope) (request : Request) :
    s.serve request = s.claimAll request.mentions := by
  cases request with
  | claim package simple => rfl
  | collect type =>
    have hone := foldl_claimType s [type]
    rwa [List.flatMap_singleton] at hone

theorem serveAll_append (s : Scope) (before after : List Request) :
    s.serveAll (before ++ after) = (s.serveAll before).serveAll after :=
  List.foldl_append

theorem serveAll_eq (s : Scope) (requests : List Request) :
    s.serveAll requests = s.claimAll (requests.flatMap Request.mentions) := by
  induction requests generalizing s with
  | nil => rfl
  | cons request requests ih =>
    rw [List.flatMap_cons, claimAll_append, ← serve_eq]
    exact ih (s.serve request)

/-! ## What no request changes -/

/-- **Every name that has an owner in the first scope has the same owner in the second**, and both
are scopes of one package. -/
structure Extends (s t : Scope) : Prop where
  package : t.package = s.package
  owner : ∀ {simple owner : String}, s.owner? simple = some owner → t.owner? simple = some owner

theorem Extends.refl (s : Scope) : s.Extends s :=
  ⟨rfl, fun howner => howner⟩

theorem Extends.trans {s t u : Scope} (hst : s.Extends t) (htu : t.Extends u) : s.Extends u :=
  ⟨htu.package.trans hst.package, fun howner => htu.owner (hst.owner howner)⟩

/-- No request takes a name from its owner. -/
theorem extends_serve (s : Scope) (request : Request) : s.Extends (s.serve request) := by
  rw [serve_eq]
  refine ⟨package_claimAll s _, fun howner => ?_⟩
  rw [owner?_claimAll, howner, Option.some_or]

theorem extends_serveAll (s : Scope) (requests : List Request) :
    s.Extends (s.serveAll requests) := by
  induction requests generalizing s with
  | nil => exact Extends.refl s
  | cons request requests ih => exact (extends_serve s request).trans (ih (s.serve request))

theorem distinct_afterRequests (package name : String) (requests : List Request) :
    (afterRequests package name requests).Distinct := by
  have hstart : Distinct ⟨package, []⟩ := List.Pairwise.nil
  rw [afterRequests, serveAll_eq, ofClass_eq]
  exact distinct_claimAll (distinct_claimAll hstart _) _

/-- Imports stay when names keep their owners. -/
theorem imports_subset_of_extends {s t : Scope} (h : s.Extends t) (hs : s.Distinct)
    (ht : t.Distinct) : s.imports ⊆ t.imports := by
  intro qualified hmem
  obtain ⟨package, simple, howner, hneeds, rfl⟩ := (mem_imports_iff hs).1 hmem
  have hstill : t.needsImport package = true := by
    rw [needsImport, h.package]
    exact hneeds
  exact (mem_imports_iff ht).2 ⟨package, simple, h.owner howner, hstill, rfl⟩

/-! ## Who owns a name -/

/-- **Who is to own a simple name**: the class itself if it is its name, else `java.lang` if all
methods name it, else the package that is the first to mention it. -/
def firstOwner? (package name : String) (requests : List Request) (simple : String) :
    Option String :=
  if simple = name then some package
  else if simple ∈ methodNames then some implicitPackage
  else ((requests.flatMap Request.mentions).find? (·.topLevel == simple)).map (·.package)

theorem owner?_ofClass (package name simple : String) :
    (ofClass package name).owner? simple = firstOwner? package name [] simple :=
  owner?_scopeOf_cases ⟨package, name, "", []⟩ [] simple

/-- **The owner of a name is the first to mention it**, after the class and its methods. -/
theorem owner?_afterRequests (package name : String) (requests : List Request) (simple : String) :
    (afterRequests package name requests).owner? simple
      = firstOwner? package name requests simple := by
  rw [afterRequests, serveAll_eq, owner?_claimAll, owner?_ofClass]
  unfold firstOwner?
  split
  · rfl
  split <;> rfl

/-! ## Names that have owners -/

/-- Each of the classes has a simple name that belongs to some package. -/
def Owned (s : Scope) (classes : List ClassName) : Prop :=
  ∀ c ∈ classes, ∃ owner, s.owner? c.topLevel = some owner

theorem Owned.extends {s t : Scope} {classes : List ClassName} (h : s.Owned classes)
    (hext : s.Extends t) : t.Owned classes := by
  intro c hc
  obtain ⟨owner, howner⟩ := h c hc
  exact ⟨owner, hext.owner howner⟩

theorem owned_serve (s : Scope) (request : Request) : (s.serve request).Owned request.mentions := by
  intro c hc
  have hfound : (request.mentions.find? (·.topLevel == c.topLevel)).isSome = true :=
    List.find?_isSome.2 ⟨c, hc, beq_self_eq_true _⟩
  obtain ⟨first, hfirst⟩ := Option.isSome_iff_exists.1 hfound
  rw [serve_eq, owner?_claimAll, hfirst]
  cases s.owner? c.topLevel with
  | none => exact ⟨first.package, rfl⟩
  | some owner => exact ⟨owner, rfl⟩

/-- After a request, whatever else was asked for, its names have owners. -/
theorem owned_of_mem {request : Request} {requests : List Request} (h : request ∈ requests)
    (s : Scope) : (s.serveAll requests).Owned request.mentions := by
  obtain ⟨before, after, rfl⟩ := List.append_of_mem h
  rw [serveAll_append]
  exact (owned_serve (s.serveAll before) request).extends (extends_serveAll _ after)

theorem claimAll_of_owned {s : Scope} {classes : List ClassName} (h : s.Owned classes) :
    s.claimAll classes = s := by
  induction classes with
  | nil => rfl
  | cons c classes ih =>
    obtain ⟨⟨owner, howner⟩, hrest⟩ := List.forall_mem_cons.1 h
    have hsame : s.claim c.package c.topLevel = s := by rw [claim, howner]
    have hall := ih hrest
    rw [← hsame] at hall
    exact hall.trans hsame

/-- A request changes nothing where all names that it mentions have owners. -/
theorem serve_of_owned {s : Scope} {request : Request} (h : s.Owned request.mentions) :
    s.serve request = s := by
  rw [serve_eq, claimAll_of_owned h]

theorem spelling_of_extends {s t : Scope} (hext : s.Extends t) {name : String}
    (h : s.Owned (ClassName.guess? name).toList) : t.spelling name = s.spelling name := by
  unfold spelling
  cases hguess : ClassName.guess? name with
  | none => rfl
  | some c =>
    obtain ⟨owner, howner⟩ := h c (by simp [hguess])
    have howns : t.owns c.package c.topLevel = s.owns c.package c.topLevel := by
      rw [owns, owns, hext.owner howner, howner]
    simp only [howns]

/-- **A type of which all names have owners is written in the same way from then on.** -/
theorem typeText_of_extends {s t : Scope} (hext : s.Extends t) {type : FieldType}
    (h : s.Owned (Request.collect type).mentions) : t.typeText type = s.typeText type := by
  refine spell_congr fun name hname => spelling_of_extends hext fun c hc => h c ?_
  exact List.mem_filterMap.2 ⟨name, hname, Option.mem_toList.1 hc⟩

/-- **A package that asks for a name is told whether it owns it for good.** -/
theorem grants_eq_true_iff (s : Scope) (package simple : String) (rest : List Request) :
    s.grants package simple = true ↔
      (s.serveAll (.claim package simple :: rest)).owner? simple = some package := by
  have howned := owned_serve s (.claim package simple)
  obtain ⟨owner, howner⟩ := howned ⟨package, simple, ""⟩ List.mem_cons_self
  have hlater : (s.serveAll (.claim package simple :: rest)).owner? simple = some owner :=
    (extends_serveAll (s.serve (.claim package simple)) rest).owner howner
  have hnow : (s.claim package simple).owner? simple = some owner := howner
  rw [hlater, grants, owns, hnow, beq_iff_eq]

end Scope

open Scope

/-- **The first claim of a name wins for good.** After any requests the owner of a name is the class
itself, a class that all methods name, or the first to mention it. Whatever is asked for later, it
stays the owner, no import is lost, and a type that asked for its names changes nothing by asking
again and is written as before. A package that claims a name is told whether it owns the name in the
end. -/
theorem first_claim_wins (package name : String) (before after : List Request) :
    let early := afterRequests package name before
    let late := afterRequests package name (before ++ after)
    (∀ simple, early.owner? simple = firstOwner? package name before simple) ∧
      (∀ simple owner, early.owner? simple = some owner → late.owner? simple = some owner) ∧
      (∀ claiming simple rest, after = .claim claiming simple :: rest →
        (early.grants claiming simple = true ↔ late.owner? simple = some claiming)) ∧
      early.imports ⊆ late.imports ∧
      ∀ type, .collect type ∈ before →
        late.serve (.collect type) = late ∧ late.typeText type = early.typeText type := by
  intro early late
  have hlate : late = early.serveAll after := serveAll_append _ before after
  have hext : early.Extends late := by
    rw [hlate]
    exact extends_serveAll early after
  refine ⟨fun simple => ?_, fun simple owner => hext.owner, ?_, ?_, fun type hmem => ?_⟩
  · exact owner?_afterRequests package name before simple
  · rintro claiming simple rest rfl
    rw [hlate]
    exact grants_eq_true_iff early claiming simple rest
  · exact imports_subset_of_extends hext (distinct_afterRequests package name before)
      (distinct_afterRequests package name (before ++ after))
  · have howned : early.Owned (Request.collect type).mentions :=
      owned_of_mem hmem (ofClass package name)
    exact ⟨serve_of_owned (howned.extends hext), typeText_of_extends hext howned⟩

/-- Of two classes named in one type the second asks for the simple name again, and a class of
another package asks for the outermost name. -/
theorem first_claim_wins_map :
    let type : FieldType := .reference "java.util.Map"
      [.reference "com.a.Item" [], .array (.reference "com.b.Item" [])]
    let early := afterRequests "geo" "Shape" [.collect type]
    let late := afterRequests "geo" "Shape"
      ([.collect type] ++ [.claim "com.b" "Item", .collect (.reference "com.c.Map" [])])
    early.owner? "Item" = some "com.a" ∧ late.owner? "Item" = some "com.a" ∧
      early.grants "com.b" "Item" = false ∧ "java.util" ++ "." ++ "Map" ∈ late.imports ∧
      late.serve (.collect type) = late ∧ late.typeText type = "Map<Item, com.b.Item[]>" := by
  intro type early late
  obtain ⟨-, hkeeps, hgrants, himports, htypes⟩ := first_claim_wins "geo" "Shape" [.collect type]
    [.claim "com.b" "Item", .collect (.reference "com.c.Map" [])]
  have hitem : early.owner? "Item" = some "com.a" := by decide +kernel
  have hlate : late.owner? "Item" = some "com.a" := hkeeps "Item" "com.a" hitem
  have hmap : "java.util" ++ "." ++ "Map" ∈ early.imports :=
    (mem_imports_iff (distinct_afterRequests _ _ _)).2
      ⟨"java.util", "Map", by decide +kernel, by decide +kernel, rfl⟩
  have hwritten : early.typeText type = "Map<Item, com.b.Item[]>" := by decide +kernel
  obtain ⟨hagain, hsame⟩ := htypes type List.mem_cons_self
  refine ⟨hitem, hlate, ?_, himports hmap, hagain, hsame.trans hwritten⟩
  rw [Bool.eq_false_iff]
  intro hgranted
  have hother := (hgrants "com.b" "Item" _ rfl).1 hgranted
  exact absurd (hlate.symm.trans hother) (by decide)

end Java

end ValueClass
