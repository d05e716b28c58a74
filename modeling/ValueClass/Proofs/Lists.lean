import Mathlib.Data.List.Forall2
import Mathlib.Data.List.TakeWhile

/-!
# Lists

Facts about lists of any kind that several of the other modules need.

* `forall_mem_right_of_forall₂`, `exists_forall₂`: lists that correspond element by element.
* `pairwise_mergeSort_key`, `find?_eq_of_perm`, `nodup_eraseDups`: order and repetition.
* `lookup_of_mem`, `lookup_cons_eq_ite`: looking up keys.
* `isPrefixOf?_append`: taking off what a list starts with.
* `map_eq_ok_iff`: results that are mapped.
-/

namespace ValueClass

/-! ## Elements that correspond -/

theorem forall_mem_right_of_forall₂ {α β : Type} {R : α → β → Prop} {P : β → Prop} {as : List α}
    {bs : List β} (h : List.Forall₂ R as bs) (hp : ∀ a ∈ as, ∀ b, R a b → P b) :
    ∀ b ∈ bs, P b := by
  induction h with
  | nil => simp
  | @cons a b as bs hab _ ih =>
    have hrest := ih fun a ha => hp a (List.mem_cons_of_mem _ ha)
    exact List.forall_mem_cons.2 ⟨hp a List.mem_cons_self b hab, hrest⟩

theorem exists_mem_right_of_forall₂ {α β : Type} {R : α → β → Prop} {a : α} {as : List α}
    {bs : List β} (h : List.Forall₂ R as bs) (ha : a ∈ as) : ∃ b ∈ bs, R a b :=
  forall_mem_right_of_forall₂ (P := fun a => ∃ b ∈ bs, R a b) h.flip
    (fun b hb _ hab => ⟨b, hb, hab⟩) a ha

theorem forall₂_imp_of_mem {α β : Type} {R S : α → β → Prop} {as : List α} {bs : List β}
    (h : List.Forall₂ R as bs) (himp : ∀ a ∈ as, ∀ b, R a b → S a b) : List.Forall₂ S as bs :=
  ((List.forall₂_and_left as bs).2 ⟨himp, h⟩).imp fun _ b hab => hab.1 b hab.2

theorem forall₂_zipWith {α β γ : Type} {R : α → β → Prop} {S : α → γ → Prop} {f : α → β → γ}
    {as : List α} {bs : List β} (h : List.Forall₂ R as bs) (hf : ∀ a b, R a b → S a (f a b)) :
    List.Forall₂ S as (List.zipWith f as bs) := by
  induction h with
  | nil => exact .nil
  | cons hab _ ih => exact .cons (hf _ _ hab) ih

theorem map_zipWith_of_forall₂ {α β γ : Type} {R : α → β → Prop} {f : α → β → γ} {g : γ → β}
    {as : List α} {bs : List β} (h : List.Forall₂ R as bs) (hg : ∀ a b, g (f a b) = b) :
    (List.zipWith f as bs).map g = bs := by
  induction h with
  | nil => rfl
  | cons _ _ ih => rw [List.zipWith_cons_cons, List.map_cons, hg, ih]

theorem exists_forall₂ {α β : Type} {R : α → β → Prop} {as : List α}
    (h : ∀ a ∈ as, ∃ b, R a b) : ∃ bs, List.Forall₂ R as bs := by
  induction as with
  | nil => exact ⟨[], .nil⟩
  | cons a as ih =>
    obtain ⟨⟨b, hb⟩, hrest⟩ := List.forall_mem_cons.1 h
    obtain ⟨bs, hbs⟩ := ih hrest
    exact ⟨b :: bs, .cons hb hbs⟩

theorem exists_between_of_forall₂ {α β γ : Type} {R : α → β → Prop} {S : β → γ → Prop} {as : List α}
    {cs : List γ} (h : List.Forall₂ (fun a c => ∃ b, R a b ∧ S b c) as cs) :
    ∃ bs, List.Forall₂ R as bs ∧ List.Forall₂ S bs cs := by
  induction h with
  | nil => exact ⟨[], .nil, .nil⟩
  | cons hac _ ih =>
    obtain ⟨b, hab, hbc⟩ := hac
    obtain ⟨bs, hfirst, hsecond⟩ := ih
    exact ⟨b :: bs, .cons hab hfirst, .cons hbc hsecond⟩

/-! ## Order and repetition -/

theorem pairwise_mergeSort_key {α β : Type} [LE β] [LT β] [DecidableLT β] [Std.IsLinearOrder β]
    [Std.LawfulOrderLT β] (key : α → β) (as : List α) :
    (as.mergeSort fun a b => !decide (key b < key a)).Pairwise (key · ≤ key ·) := by
  have htrans : ∀ a b c : α, (!decide (key b < key a)) = true → (!decide (key c < key b)) = true →
      (!decide (key c < key a)) = true := by
    intro a b c hab hbc
    simp only [Bool.not_eq_true', decide_eq_false_iff_not, Std.not_lt] at hab hbc ⊢
    exact Std.le_trans hab hbc
  have htotal : ∀ a b : α, (!decide (key b < key a) || !decide (key a < key b)) = true := by
    intro a b
    simp only [Bool.or_eq_true, Bool.not_eq_true', decide_eq_false_iff_not, Std.not_lt]
    exact Std.le_total
  refine (List.pairwise_mergeSort htrans htotal as).imp fun {a b} hab => ?_
  rwa [Bool.not_eq_true', decide_eq_false_iff_not, Std.not_lt] at hab

theorem find?_eq_of_perm {α β : Type} {f : α → β} {p : α → Bool} {as bs : List α}
    (hperm : as.Perm bs) (hagree : ∀ a ∈ as, ∀ b ∈ as, p a = true → p b = true → f a = f b) :
    (as.find? p).map f = (bs.find? p).map f := by
  cases ha : as.find? p with
  | none =>
    have hb : bs.find? p = none :=
      List.find?_eq_none.2 fun b hb => List.find?_eq_none.1 ha b (hperm.mem_iff.2 hb)
    rw [hb]
  | some a =>
    have hmem := List.mem_of_find?_eq_some ha
    have hsome : (bs.find? p).isSome = true :=
      List.find?_isSome.2 ⟨a, hperm.mem_iff.1 hmem, List.find?_some ha⟩
    obtain ⟨b, hb⟩ := Option.isSome_iff_exists.1 hsome
    have hother := hperm.mem_iff.2 (List.mem_of_find?_eq_some hb)
    rw [hb, Option.map_some, Option.map_some,
      hagree a hmem b hother (List.find?_some ha) (List.find?_some hb)]

theorem nodup_eraseDups {α : Type} [BEq α] [LawfulBEq α] : ∀ as : List α, as.eraseDups.Nodup
  | [] => List.Pairwise.nil
  | a :: as => by
    rw [List.eraseDups_cons, List.nodup_cons]
    refine ⟨?_, nodup_eraseDups _⟩
    simp [List.mem_eraseDups]
termination_by as => as.length
decreasing_by exact Nat.lt_succ_of_le (List.length_filter_le _ _)

theorem map_eq_self_iff {α : Type} {f : α → α} {as : List α} :
    as.map f = as ↔ ∀ a ∈ as, f a = a := by
  have hid : as.map f = as.map id ↔ ∀ a ∈ as, f a = id a := List.map_inj_left
  rwa [List.map_id] at hid

theorem flatMap_ite {α β : Type} {p : α → Bool} {f : α → β} (as : List α) :
    (as.flatMap fun a => if p a then [f a] else []) = (as.filter p).map f := by
  induction as with
  | nil => rfl
  | cons a as ih => cases h : p a <;> simp [h, ih]

/-- What is dropped at the end stands at the end. -/
theorem exists_end_eq {α : Type} (drops : α → Bool) (as : List α) :
    ∃ ends, as = (as.reverse.dropWhile drops).reverse ++ ends ∧ ∀ a ∈ ends, drops a = true := by
  refine ⟨(as.reverse.takeWhile drops).reverse, ?_, fun a ha => ?_⟩
  · rw [← List.reverse_append, List.takeWhile_append_dropWhile, List.reverse_reverse]
  · exact List.mem_takeWhile_imp (List.mem_reverse.1 ha)

/-! ## Keys -/

theorem lookup_cons_eq_ite {κ β : Type} [BEq κ] [LawfulBEq κ] [DecidableEq κ] (first key : κ)
    (b : β) (rest : List (κ × β)) :
    ((first, b) :: rest).lookup key = if key = first then some b else rest.lookup key := by
  rw [List.lookup_cons]
  split
  · rename_i heq
    rw [if_pos (beq_iff_eq.1 heq)]
  · rename_i hne
    rw [if_neg (beq_eq_false_iff_ne.1 hne)]

theorem lookup_of_mem {κ β : Type} [BEq κ] [LawfulBEq κ] {entries : List (κ × β)}
    (h : (entries.map Prod.fst).Nodup) {key : κ} {b : β} (hmem : (key, b) ∈ entries) :
    entries.lookup key = some b := by
  induction entries with
  | nil => cases hmem
  | cons entry rest ih =>
    obtain ⟨first, c⟩ := entry
    rw [List.map_cons, List.nodup_cons] at h
    rcases List.mem_cons.1 hmem with heq | hrest
    · cases heq
      exact List.lookup_cons_self
    · have hkey : key ≠ first := fun heq => h.1 (List.mem_map.2 ⟨_, hrest, heq⟩)
      rw [List.lookup_cons, beq_false_of_ne hkey]
      exact ih h.2 hrest

/-! ## Beginnings -/

theorem isPrefixOf?_append {α : Type} [BEq α] [LawfulBEq α] (as bs : List α) :
    as.isPrefixOf? (as ++ bs) = some bs :=
  List.isPrefixOf?_eq_some_iff_append_eq.2 rfl

/-! ## Results -/

theorem map_eq_ok_iff {ε α β : Type} {f : α → β} {result : Except ε α} {b : β} :
    result.map f = .ok b ↔ ∃ a, result = .ok a ∧ f a = b := by
  cases result with
  | error e => exact ⟨nofun, nofun⟩
  | ok a =>
    constructor
    · intro h
      cases h
      exact ⟨a, rfl, rfl⟩
    · rintro ⟨_, ⟨⟩, rfl⟩
      rfl

end ValueClass
