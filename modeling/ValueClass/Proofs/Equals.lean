import ValueClass.Java.Printer
import ValueClass.Proofs.Equivalence
import ValueClass.Proofs.Evaluation

/-!
# What `equals` returns

After it has made sure that the other object is of the same class, `equals` returns the value of one
expression, which compares the fields one after the other. It is the equality of the instances,
whatever the fields are called.

* `helperMethod`: what the helper method does, by its body.
* `eval_comparison`: the comparison of one field is the equality of its values.
* `callsHelper_equalsResult`: the helper method is called if and only if the class has it.
* `eval_equalsResult`: **the expression says whether the instances are equal.**
-/

namespace ValueClass.Java

/-- **What the helper method returns**, run on an object with the given fields. Its parameters hide
fields of their names. -/
def helperMethod (fields : String → Option Value) (left right : Value) : Option Value :=
  run
    { locals := fun id =>
        if id = "left" then some (some left) else if id = "right" then some (some right) else none
      this := fields
      that := fun _ => none
      helper := none }
    helperStatements

theorem helperMethod_reference (fields : String → Option Value) (a b : Option String) :
    helperMethod fields (.reference a) (.reference b) = some (.boolean (a == b)) := by
  cases a <;> cases b <;>
    simp [helperMethod, helperStatements, run, Statement.exec, Expr.eval, Frame.read, sameValue]

/-- The frame in which `equals` compares the fields of two objects. The parameter and the variable
hold objects of the class. -/
def Object.equalsFrame {members : List Member} (o other : Object members) : Frame where
  locals := fun id => if id ∈ equalsVariables then some none else none
  this := o.field
  that := other.field
  helper := if needsHelper members then some (helperMethod o.field) else none

/-! ## One field -/

theorem toInt32_injective_byte : Function.Injective Int8.toInt32 := by
  intro a b h
  exact Int8.toInt_inj.1 (by simpa using congrArg Int32.toInt h)

theorem toInt32_injective_short : Function.Injective Int16.toInt32 := by
  intro a b h
  exact Int16.toInt_inj.1 (by simpa using congrArg Int32.toInt h)

theorem toInt32_injective_char : Function.Injective fun unit : UInt16 => unit.toUInt32.toInt32 := by
  intro a b h
  have hword : a.toUInt32 = b.toUInt32 := by simpa using congrArg Int32.toUInt32 h
  exact UInt16.toUInt32_inj.1 hword

/-- Two scalars other than floating point numbers are the same as the operator says. -/
theorem sameValue_of_fits {kind : Scalar} {a b : Value} (ha : a.fits (.scalar kind))
    (hb : b.fits (.scalar kind)) (hfloat : kind ≠ .float) (hdouble : kind ≠ .double) :
    ∃ answer, equalOf (.scalar kind) a b = .ok answer ∧ sameValue a b = some answer := by
  have hakind := fits_scalar ha
  have hbkind := fits_scalar hb
  cases a with
  | boolean x | int x | long x =>
    cases hakind
    cases b <;> cases hbkind
    exact ⟨_, rfl, rfl⟩
  | byte x =>
    cases hakind
    cases b <;> cases hbkind
    exact ⟨_, rfl, congrArg some toInt32_injective_byte.beq_eq⟩
  | short x =>
    cases hakind
    cases b <;> cases hbkind
    exact ⟨_, rfl, congrArg some toInt32_injective_short.beq_eq⟩
  | char x =>
    cases hakind
    cases b <;> cases hbkind
    exact ⟨_, rfl, congrArg some toInt32_injective_char.beq_eq⟩
  | float x => cases hakind; exact absurd rfl hfloat
  | double x => cases hakind; exact absurd rfl hdouble
  | array items => cases hakind
  | reference text => cases hakind

/-- **The comparison of a field is the equality of its values.** -/
theorem eval_comparison (library : LibrarySpelling) {m : Member} {a b : Value} {f : Frame}
    (hmine : f.this m.name = some a) (htheirs : f.that m.name = some b) (ha : a.fits m.type)
    (hb : b.fits m.type)
    (hhelper : m.type.isReference = true → f.helper = some (helperMethod f.this)) :
    ∃ answer, equalOf m.type a b = .ok answer ∧
      (comparison library (.ofThis m.name) m).eval f = some (.boolean answer) := by
  unfold comparison
  cases htype : m.type with
  | scalar kind =>
    rw [htype] at ha hb
    by_cases hfloat : kind = .float
    · subst hfloat
      -- words are compared, not numbers: every NaN has the same one, and the zeros differ
      obtain ⟨x, rfl⟩ := fits_float ha
      obtain ⟨y, rfl⟩ := fits_float hb
      refine ⟨_, rfl, ?_⟩
      simp [FieldType.equalityRule, Expr.eval, hmine, htheirs, sameValue, operands, Value.toInt?]
    by_cases hdouble : kind = .double
    · subst hdouble
      obtain ⟨x, rfl⟩ := fits_double ha
      obtain ⟨y, rfl⟩ := fits_double hb
      refine ⟨_, rfl, ?_⟩
      simp [FieldType.equalityRule, Expr.eval, hmine, htheirs, sameValue, operands, Value.toInt?,
        Value.toLong?]
    obtain ⟨answer, hanswer, hsame⟩ := sameValue_of_fits ha hb hfloat hdouble
    have hrule : (FieldType.scalar kind).equalityRule = .value := by
      cases kind with
      | float => exact absurd rfl hfloat
      | double => exact absurd rfl hdouble
      | _ => rfl
    refine ⟨answer, hanswer, ?_⟩
    simp [hrule, Expr.eval, hmine, htheirs, hsame]
  | array element =>
    rw [htype] at ha hb
    obtain ⟨answer, hanswer, harray⟩ := arrayEquals_of_fits ha hb
    refine ⟨answer, hanswer, ?_⟩
    cases element <;>
      simpa [FieldType.equalityRule, FieldType.isNestedArray, Expr.eval, hmine, htheirs]
        using harray
  | reference name arguments =>
    rw [htype] at ha hb
    obtain ⟨x, rfl⟩ := fits_reference ha
    obtain ⟨y, rfl⟩ := fits_reference hb
    refine ⟨x == y, rfl, ?_⟩
    have hmethod := hhelper (by rw [htype]; rfl)
    simp [FieldType.equalityRule, Expr.eval, hmine, htheirs, hmethod, helperMethod_reference]

/-! ## All fields -/

theorem eval_both {f : Frame} {a b : Expr} {x y : Bool} (ha : a.eval f = some (.boolean x))
    (hb : b.eval f = some (.boolean y)) : (Expr.both a b).eval f = some (.boolean (x && y)) := by
  cases x <;> simp [Expr.eval, ha, hb]

theorem equalFields_cons {type other : FieldType} {a b : Value} {as bs : Instance}
    {first rest : Bool} (hfirst : equalOf type a b = .ok first)
    (hrest : equalFields as bs = .ok rest) :
    equalFields ((type, a) :: as) ((other, b) :: bs) = .ok (first && rest) := by
  rw [equalFields_cons_eq_ok_iff]
  cases first with
  | true => exact .inl ⟨hfirst, hrest⟩
  | false => exact .inr ⟨hfirst, rfl⟩

variable {members : List Member} {compare : Member → Expr} {mine theirs : Member → Value}
  {f : Frame}

/-- Comparisons that follow others in a conjunction. -/
theorem eval_foldl_both
    (h : ∀ m ∈ members, ∃ answer, equalOf m.type (mine m) (theirs m) = .ok answer ∧
      (compare m).eval f = some (.boolean answer))
    {e : Expr} {x : Bool} (he : e.eval f = some (.boolean x)) :
    ∃ answer, equalFields (members.map fun m => (m.type, mine m))
        (members.map fun m => (m.type, theirs m)) = .ok answer ∧
      ((members.map compare).foldl .both e).eval f = some (.boolean (x && answer)) := by
  -- the conjunction nests to the left, so the induction carries what was compared before
  induction members generalizing e x with
  | nil => exact ⟨true, rfl, by simpa using he⟩
  | cons m members ih =>
    obtain ⟨first, hfirst, hcompare⟩ := h m List.mem_cons_self
    obtain ⟨rest, hrest, hfold⟩ :=
      ih (fun m' hm' => h m' (List.mem_cons_of_mem _ hm')) (eval_both he hcompare)
    refine ⟨first && rest, equalFields_cons hfirst hrest, ?_⟩
    simpa only [List.map_cons, List.foldl_cons, Bool.and_assoc] using hfold

theorem eval_conjunction
    (h : ∀ m ∈ members, ∃ answer, equalOf m.type (mine m) (theirs m) = .ok answer ∧
      (compare m).eval f = some (.boolean answer)) :
    ∃ answer, equalFields (members.map fun m => (m.type, mine m))
        (members.map fun m => (m.type, theirs m)) = .ok answer ∧
      (conjunction (members.map compare)).eval f = some (.boolean answer) := by
  cases members with
  | nil => exact ⟨true, rfl, rfl⟩
  | cons m members =>
    obtain ⟨first, hfirst, hcompare⟩ := h m List.mem_cons_self
    obtain ⟨rest, hrest, hfold⟩ :=
      eval_foldl_both (fun m' hm' => h m' (List.mem_cons_of_mem _ hm')) hcompare
    exact ⟨first && rest, equalFields_cons hfirst hrest, hfold⟩

/-- The comparison with `this.` before each field says whether the instances are equal. -/
theorem eval_comparisonOfAll (library : LibrarySpelling)
    (distinct : (members.map Member.name).Nodup) (a b : Object members) :
    ∃ answer, a.toInstance.equals b.toInstance = .ok answer ∧
      (comparisonOfAll library .ofThis members).eval (a.equalsFrame b) =
        some (.boolean answer) := by
  obtain ⟨mine, hmine, hmine'⟩ := a.exists_value distinct
  obtain ⟨theirs, htheirs, htheirs'⟩ := b.exists_value distinct
  have hhelper : ∀ m ∈ members, m.type.isReference = true →
      (a.equalsFrame b).helper = some (helperMethod (a.equalsFrame b).this) := by
    intro m hm href
    have hneeds : needsHelper members = true := List.any_eq_true.2 ⟨m, hm, href⟩
    simp [Object.equalsFrame, hneeds]
  obtain ⟨answer, hanswer, heval⟩ := eval_conjunction fun m hm =>
    eval_comparison library (hmine' m hm).1 (htheirs' m hm).1 (hmine' m hm).2 (htheirs' m hm).2
      (hhelper m hm)
  refine ⟨answer, ?_, heval⟩
  simpa [Instance.equals, hmine, htheirs, Function.comp_def] using hanswer

/-! ## Names and the helper method -/

theorem resolve_comparison (library : LibrarySpelling) (scope : List String) (mine : Expr)
    (m : Member) :
    (comparison library mine m).resolve scope = comparison library (mine.resolve scope) m := by
  unfold comparison
  cases m.type.equalityRule <;> rfl

theorem resolve_foldl_both (scope : List String) (es : List Expr) (e : Expr) :
    (es.foldl .both e).resolve scope =
      (es.map (Expr.resolve scope)).foldl .both (e.resolve scope) := by
  induction es generalizing e with
  | nil => rfl
  | cons e' es ih => exact ih (.both e e')

/-- **Every name that should mean a field means it**, next to the parameter and the variable. -/
theorem resolve_equalsResult (library : LibrarySpelling) (members : List Member) :
    (equalsResult library members).resolve equalsVariables =
      comparisonOfAll library .ofThis members := by
  have hfield : ∀ name, (fieldIn equalsVariables name).resolve equalsVariables = .ofThis name :=
    resolve_fieldIn fun _ hx => hx
  cases members with
  | nil => rfl
  | cons m members =>
    simp [equalsResult, comparisonOfAll, conjunction, resolve_foldl_both, resolve_comparison,
      hfield, Function.comp_def]

/-- Whether an expression calls the helper method. -/
def Expr.callsHelper : Expr → Bool
  | .nullSafeEquals _ _ => true
  | .name _ | .ofThis _ | .ofThat _ | .null | .number _ | .truth => false
  | .product a b | .sum a b | .exclusiveOr a b | .same a b | .arrayEquals _ _ a b
  | .objectEquals a b | .both a b => a.callsHelper || b.callsHelper
  | .upperHalf e | .toInt e | .objectHash e | .floatBits _ e | .doubleBits _ e
  | .arrayHash _ _ e => e.callsHelper
  | .choice condition yes no => condition.callsHelper || yes.callsHelper || no.callsHelper

theorem callsHelper_comparison (library : LibrarySpelling) {mine : Expr}
    (hmine : mine.callsHelper = false) (m : Member) :
    (comparison library mine m).callsHelper = m.type.isReference := by
  unfold comparison
  cases m.type with
  | scalar kind =>
    cases kind <;> simp [FieldType.equalityRule, Expr.callsHelper, hmine, FieldType.isReference]
  | array element =>
    cases element <;> simp [FieldType.equalityRule, Expr.callsHelper, hmine, FieldType.isReference]
  | reference name arguments => rfl

theorem callsHelper_foldl_both (es : List Expr) (e : Expr) :
    (es.foldl .both e).callsHelper = (e.callsHelper || es.any Expr.callsHelper) := by
  induction es generalizing e with
  | nil => simp
  | cons e' es ih => rw [List.foldl_cons, ih, List.any_cons, Expr.callsHelper, Bool.or_assoc]

/-- **The helper method is called if and only if some field needs it.** -/
theorem callsHelper_equalsResult (library : LibrarySpelling) (members : List Member) :
    (equalsResult library members).callsHelper = needsHelper members := by
  have hfield : ∀ name, (fieldIn equalsVariables name).callsHelper = false := by
    intro name
    unfold fieldIn
    split <;> rfl
  cases members with
  | nil => rfl
  | cons m members =>
    simp [equalsResult, comparisonOfAll, conjunction, callsHelper_foldl_both,
      callsHelper_comparison library (hfield _), needsHelper, Function.comp_def]

theorem exists_eval_equalsResult (library : LibrarySpelling) {members : List Member}
    (distinct : (members.map Member.name).Nodup) (a b : Object members) :
    ∃ answer, a.toInstance.equals b.toInstance = .ok answer ∧
      (equalsResult library members).eval (a.equalsFrame b) = some (.boolean answer) := by
  obtain ⟨answer, hanswer, heval⟩ := eval_comparisonOfAll library distinct a b
  have hscope : (a.equalsFrame b).HasScope equalsVariables := by
    intro id
    by_cases hid : id ∈ equalsVariables <;> simp [Object.equalsFrame, hid]
  exact ⟨answer, hanswer, by rw [← Expr.eval_resolve hscope, resolve_equalsResult, heval]⟩

/-- **`equals` returns whether the instances are equal**, for two objects of the class and whatever
its fields are called. The class has the helper method if the expression calls it, a class without
fields has equal objects only, and no field is hidden where it is meant. -/
theorem eval_equalsResult (u : CompilationUnit) (distinct : (u.members.map Member.name).Nodup)
    (a b : Object u.members) :
    (∃ answer, a.toInstance.equals b.toInstance = .ok answer ∧
      (equalsResult u.library u.members).eval (a.equalsFrame b) = some (.boolean answer)) ∧
    ((equalsResult u.library u.members).callsHelper = true → helperText u.library ∈ u.blocks) ∧
    (u.members = [] → a.toInstance.equals b.toInstance = .ok true ∧
      (equalsResult u.library u.members).eval (a.equalsFrame b) = some (.boolean true)) ∧
    (equalsResult u.library u.members).resolve equalsVariables =
      comparisonOfAll u.library .ofThis u.members := by
  refine ⟨exists_eval_equalsResult u.library distinct a b, ?_, ?_,
    resolve_equalsResult u.library u.members⟩
  · intro hcalls
    rw [callsHelper_equalsResult] at hcalls
    simp [CompilationUnit.blocks, hcalls]
  · intro hempty
    simp [Object.toInstance, Object.fields, hempty, Instance.equals, equalFields, equalsResult,
      comparisonOfAll, conjunction, Expr.eval]

/-- A class whose fields are called like the parameters and variables of both methods. -/
theorem eval_equalsResult_hidden_fields :
    let members : List Member :=
      [⟨"other", "", .reference "String" [], "String"⟩, ⟨"that", "", .scalar .float, "float"⟩,
        ⟨"left", "", .array (.array (.scalar .char)), "char[][]"⟩,
        ⟨"right", "", .reference "String" [], "String"⟩]
    let u : CompilationUnit := ⟨"", [], "", "Pair", members, ⟨"Object", "@Override", "Float",
      "Double", "java.lang.Float", "java.lang.Double", "java.util.Arrays"⟩⟩
    let a : Object u.members :=
      ⟨[.reference none, .float 0x7fc00000, .array (some [.array (some [.char 65])]),
        .reference (some "x")], by decide, by decide⟩
    let b : Object u.members :=
      ⟨[.reference none, .float 0xffc00001, .array (some [.array (some [.char 65])]),
        .reference none], by decide, by decide⟩
    (u.members.map Member.name).Nodup ∧
      ∃ answer, a.toInstance.equals b.toInstance = .ok answer ∧
        (equalsResult u.library u.members).eval (a.equalsFrame b) = some (.boolean answer) := by
  intro members u a b
  have distinct : (u.members.map Member.name).Nodup := by decide
  exact ⟨distinct, (eval_equalsResult u distinct a b).1⟩

end ValueClass.Java
