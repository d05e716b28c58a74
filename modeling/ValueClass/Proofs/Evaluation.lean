import Mathlib.Data.List.Nodup
import Mathlib.Logic.Function.Basic
import ValueClass.Java.Body
import ValueClass.Proofs.Fit
import ValueClass.Proofs.Lists

/-!
# Running method bodies

What the bodies of generated methods do, on the values of fields. There is no result where the code
would not compile, where it would throw, and where the result depends on which object an array or a
string is.

* `Frame`: what a body sees. **A variable hides the field of its name**, from its declaration on.
* `Expr.eval`, `Statement.exec`, `run`: the values of expressions, the effects of statements, and
  the value that a body returns.
* `Expr.resolve`, `resolveAll`: a body with `this.` before every name that means a field.
* `run_resolveAll`: **a body and its resolved form return the same.**
* `Object`: values for the fields of a class that fit their types.
-/

namespace ValueClass

/-- A scalar as a 32-bit number, where it is one without loss. -/
def Value.toInt? : Value → Option Int32
  | .byte n => some n.toInt32
  | .short n => some n.toInt32
  | .int n => some n
  | .char unit => some unit.toUInt32.toInt32
  | _ => none

/-- A scalar as a 64-bit number, where it is one without loss. -/
def Value.toLong? : Value → Option Int64
  | .long n => some n
  | v => v.toInt?.map Int32.toInt64

namespace Java

/-- The operands of an arithmetic operator, brought to a common width. -/
inductive Operands where
  | ints (a b : Int32)
  | longs (a b : Int64)

/-- Both operands have 32 bits, unless one needs more. -/
def operands (a b : Value) : Option Operands :=
  match a.toInt?, b.toInt? with
  | some m, some n => some (.ints m n)
  | _, _ =>
    match a.toLong?, b.toLong? with
    | some m, some n => some (.longs m n)
    | _, _ => none

/-- The value of an arithmetic operator. -/
def arithmetic (onInts : Int32 → Int32 → Int32) (onLongs : Int64 → Int64 → Int64) (a b : Value) :
    Option Value :=
  match operands a b with
  | some (.ints m n) => some (.int (onInts m n))
  | some (.longs m n) => some (.long (onLongs m n))
  | none => none

theorem arithmetic_ints {onInts : Int32 → Int32 → Int32} {onLongs : Int64 → Int64 → Int64}
    {a b : Value} {m n : Int32} (ha : a.toInt? = some m) (hb : b.toInt? = some n) :
    arithmetic onInts onLongs a b = some (.int (onInts m n)) := by
  simp only [arithmetic, operands, ha, hb]

/-- The value of `a == b`. Two strings may be equal and not be one object. -/
def sameValue : Value → Value → Option Bool
  | .boolean a, .boolean b => some (a == b)
  | .reference none, .reference none => some true
  | .reference none, .reference (some _) => some false
  | .reference (some _), .reference none => some false
  | a, b =>
    match operands a b with
    | some (.ints m n) => some (m == n)
    | some (.longs m n) => some (m == n)
    | none => none

/-- The value of `v >>> 32`. A 32-bit number is shifted by nothing, for the distance counts modulo
the width. -/
def shiftedBy32 (v : Value) : Option Value :=
  match v.toInt? with
  | some n => some (.int n)
  | none => v.toLong?.map fun (n : Int64) => .long (n.toUInt64 >>> 32).toInt64

/-- The value of `(int) v`. -/
def castToInt : Value → Option Value
  | .long n => some (.int n.toInt32)
  | v => v.toInt?.map .int

/-- What a method body sees while it runs. -/
structure Frame where
  /-- The variables in scope. A variable has no value before it is assigned one, and none that could
  be used by itself if it holds an object of the class. -/
  locals : String → Option (Option Value)
  /-- The fields of this object. -/
  this : String → Option Value
  /-- The fields of the object in the variable `that`. -/
  that : String → Option Value
  /-- The helper method, if the class has it. -/
  helper : Option (Value → Value → Option Value)

/-- What a name by itself means: a variable hides the field of its name. -/
def Frame.read (f : Frame) (id : String) : Option Value :=
  match f.locals id with
  | some content => content
  | none => f.this id

/-- The frame with a variable in scope that has the given content. -/
def Frame.put (f : Frame) (id : String) (content : Option Value) : Frame :=
  { f with locals := Function.update f.locals id (some content) }

/-- The value of an expression. -/
def Expr.eval (f : Frame) : Expr → Option Value
  | .name id => f.read id
  | .ofThis field => f.this field
  | .ofThat field => f.that field
  | .null => some (.reference none)
  | .number n => some (.int n)
  | .product a b => (a.eval f).bind fun x => (b.eval f).bind (arithmetic (· * ·) (· * ·) x)
  | .sum a b => (a.eval f).bind fun x => (b.eval f).bind (arithmetic (· + ·) (· + ·) x)
  | .exclusiveOr a b =>
    (a.eval f).bind fun x => (b.eval f).bind (arithmetic (· ^^^ ·) (· ^^^ ·) x)
  | .upperHalf e => (e.eval f).bind shiftedBy32
  | .toInt e => (e.eval f).bind castToInt
  | .same a b => (a.eval f).bind fun x => (b.eval f).bind fun y => (sameValue x y).map .boolean
  | .choice condition yes no =>
    match condition.eval f with
    | some (.boolean b) => if b then yes.eval f else no.eval f
    | _ => none
  | .objectHash e =>
    match e.eval f with
    | some (.reference (some text)) => some (.int (textHash text))
    | _ => none
  | .floatBits _ e =>
    match e.eval f with
    | some (.float bits) => some (.int (floatWord bits))
    | _ => none
  | .doubleBits _ e =>
    match e.eval f with
    | some (.double bits) => some (.long (doubleWord bits))
    | _ => none
  | .arrayHash _ deep e => (e.eval f).bind fun x => (x.arrayHash deep).map .int
  | .arrayEquals _ deep a b =>
    (a.eval f).bind fun x => (b.eval f).bind fun y => (x.arrayEquals deep y).map .boolean
  | .nullSafeEquals a b =>
    f.helper.bind fun helper => (a.eval f).bind fun x => (b.eval f).bind fun y => helper x y
  | .objectEquals a b =>
    match a.eval f, b.eval f with
    | some (.reference (some x)), some (.reference y) => some (.boolean (some x == y))
    | _, _ => none
  | .truth => some (.boolean true)
  | .both a b =>
    match a.eval f with
    | some (.boolean true) =>
      match b.eval f with
      | some (.boolean y) => some (.boolean y)
      | _ => none
    | some (.boolean false) => some (.boolean false)
    | _ => none

/-- What a statement does. -/
inductive Outcome where
  | goesOn (f : Frame)
  | returned (v : Value)

/-- The effect of a statement. A variable is in scope within its own declaration and has no value
there. It can be declared once only, and keeps its width. -/
def Statement.exec (f : Frame) : Statement → Option Outcome
  | .declareInt id e =>
    if (f.locals id).isSome then none
    else ((e.eval (f.put id none)).bind Value.toInt?).map
      fun n => .goesOn (f.put id (some (.int n)))
  | .declareLong id e =>
    if (f.locals id).isSome then none
    else
      ((e.eval (f.put id none)).bind Value.toLong?).map fun n => .goesOn (f.put id (some (.long n)))
  | .assign id e =>
    match f.locals id with
    | some (some (.int _)) =>
      ((e.eval f).bind Value.toInt?).map fun n => .goesOn (f.put id (some (.int n)))
    | some (some (.long _)) =>
      ((e.eval f).bind Value.toLong?).map fun n => .goesOn (f.put id (some (.long n)))
    | _ => none
  | .returns e => (e.eval f).map .returned
  | .returnsEither condition yes no =>
    match condition.eval f with
    | some (.boolean b) => (if b then yes.eval f else no.eval f).map .returned
    | _ => none

/-- **What a body returns.** A body may neither end without returning, nor go on after it. -/
def run (f : Frame) : List Statement → Option Value
  | [] => none
  | s :: rest =>
    match s.exec f with
    | some (.goesOn g) => run g rest
    | some (.returned v) => if rest.isEmpty then some v else none
    | none => none

theorem run_goesOn {f g : Frame} {s : Statement} {rest : List Statement}
    (h : s.exec f = some (.goesOn g)) : run f (s :: rest) = run g rest := by
  simp only [run, h]

namespace Frame

variable {f : Frame} {id other : String} {content : Option Value}

@[simp] theorem put_locals_self : (f.put id content).locals id = some content := by
  simp [put]

theorem put_locals_ne (h : other ≠ id) :
    (f.put id content).locals other = f.locals other := by
  simp [put, h]

@[simp] theorem put_this : (f.put id content).this = f.this := rfl

/-- The variables in scope are those of the list. -/
def HasScope (f : Frame) (scope : List String) : Prop :=
  ∀ id, id ∈ scope ↔ (f.locals id).isSome

theorem HasScope.put {scope : List String} (h : f.HasScope scope) :
    (f.put id content).HasScope (id :: scope) := by
  intro x
  by_cases hx : x = id
  · subst hx
    simp
  · simp [put_locals_ne hx, hx, h x]

/-- Assigning a variable in scope brings no new name into scope. -/
theorem HasScope.put_mem {scope : List String} (h : f.HasScope scope) (hid : id ∈ scope) :
    (f.put id content).HasScope scope := by
  intro x
  rw [← h.put x]
  simp only [List.mem_cons]
  constructor
  · exact Or.inr
  · rintro (rfl | hx)
    · exact hid
    · exact hx

end Frame

/-! ## Resolving names -/

/-- An expression with `this.` before every name that means a field, where the given variables are
in scope. -/
def Expr.resolve (scope : List String) : Expr → Expr
  | .name id => if id ∈ scope then .name id else .ofThis id
  | .ofThis field => .ofThis field
  | .ofThat field => .ofThat field
  | .null => .null
  | .number n => .number n
  | .product a b => .product (a.resolve scope) (b.resolve scope)
  | .sum a b => .sum (a.resolve scope) (b.resolve scope)
  | .exclusiveOr a b => .exclusiveOr (a.resolve scope) (b.resolve scope)
  | .upperHalf e => .upperHalf (e.resolve scope)
  | .toInt e => .toInt (e.resolve scope)
  | .same a b => .same (a.resolve scope) (b.resolve scope)
  | .choice condition yes no =>
    .choice (condition.resolve scope) (yes.resolve scope) (no.resolve scope)
  | .objectHash e => .objectHash (e.resolve scope)
  | .floatBits owner e => .floatBits owner (e.resolve scope)
  | .doubleBits owner e => .doubleBits owner (e.resolve scope)
  | .arrayHash owner deep e => .arrayHash owner deep (e.resolve scope)
  | .arrayEquals owner deep a b => .arrayEquals owner deep (a.resolve scope) (b.resolve scope)
  | .nullSafeEquals a b => .nullSafeEquals (a.resolve scope) (b.resolve scope)
  | .objectEquals a b => .objectEquals (a.resolve scope) (b.resolve scope)
  | .truth => .truth
  | .both a b => .both (a.resolve scope) (b.resolve scope)

/-- The variable that a statement declares. -/
def Statement.declared : Statement → List String
  | .declareInt id _ | .declareLong id _ => [id]
  | _ => []

@[simp] theorem Statement.declared_declareInt (id : String) (e : Expr) :
    (Statement.declareInt id e).declared = [id] := rfl

@[simp] theorem Statement.declared_declareLong (id : String) (e : Expr) :
    (Statement.declareLong id e).declared = [id] := rfl

@[simp] theorem Statement.declared_assign (id : String) (e : Expr) :
    (Statement.assign id e).declared = [] := rfl

@[simp] theorem Statement.declared_returns (e : Expr) : (Statement.returns e).declared = [] := rfl

/-- A statement with `this.` before every name that means a field. -/
def Statement.resolve (scope : List String) : Statement → Statement
  | .declareInt id e => .declareInt id (e.resolve (id :: scope))
  | .declareLong id e => .declareLong id (e.resolve (id :: scope))
  | .assign id e => .assign id (e.resolve scope)
  | .returns e => .returns (e.resolve scope)
  | .returnsEither condition yes no =>
    .returnsEither (condition.resolve scope) (yes.resolve scope) (no.resolve scope)

/-- **A body with `this.` before every name that means a field.** -/
def resolveAll (scope : List String) : List Statement → List Statement
  | [] => []
  | s :: rest => s.resolve scope :: resolveAll (s.declared ++ scope) rest

theorem Expr.eval_resolve {f : Frame} {scope : List String} (h : f.HasScope scope) (e : Expr) :
    (e.resolve scope).eval f = e.eval f := by
  induction e with
  | name id =>
    have hid := h id
    by_cases hmem : id ∈ scope
    · simp [Expr.resolve, hmem]
    · cases hv : f.locals id with
      | none => simp [Expr.resolve, Expr.eval, Frame.read, hmem, hv]
      | some content => simp [hmem, hv] at hid
  | ofThis | ofThat | null | number | truth => rfl
  | product a b iha ihb | sum a b iha ihb | exclusiveOr a b iha ihb | same a b iha ihb
  | nullSafeEquals a b iha ihb | arrayEquals owner deep a b iha ihb | objectEquals a b iha ihb
  | both a b iha ihb => simp only [Expr.resolve, Expr.eval, iha, ihb]
  | upperHalf e ih | toInt e ih | objectHash e ih | floatBits owner e ih | doubleBits owner e ih
  | arrayHash owner deep e ih => simp only [Expr.resolve, Expr.eval, ih]
  | choice condition yes no ihc ihy ihn => simp only [Expr.resolve, Expr.eval, ihc, ihy, ihn]

theorem Statement.exec_resolve {f : Frame} {scope : List String} (h : f.HasScope scope)
    (s : Statement) : (s.resolve scope).exec f = s.exec f := by
  cases s <;> simp only [Statement.resolve, Statement.exec, Expr.eval_resolve h,
    Expr.eval_resolve h.put]

/-- What a statement declares is in scope after it, and nothing else is new. -/
theorem Statement.hasScope_of_exec {f g : Frame} {scope : List String} (h : f.HasScope scope)
    {s : Statement} (hs : s.exec f = some (.goesOn g)) : g.HasScope (s.declared ++ scope) := by
  cases s with
  | declareInt id e | declareLong id e =>
    simp only [Statement.exec] at hs
    split at hs
    · cases hs
    · simp only [Option.map_eq_some_iff, Outcome.goesOn.injEq] at hs
      obtain ⟨n, -, rfl⟩ := hs
      exact h.put
  | assign id e =>
    have hmem : ∀ x, f.locals id = some x → id ∈ scope := fun x hx => (h id).2 (by simp [hx])
    simp only [Statement.exec] at hs
    split at hs
    · rename_i hvar
      simp only [Option.map_eq_some_iff, Outcome.goesOn.injEq] at hs
      obtain ⟨n, -, rfl⟩ := hs
      exact h.put_mem (hmem _ hvar)
    · rename_i hvar
      simp only [Option.map_eq_some_iff, Outcome.goesOn.injEq] at hs
      obtain ⟨n, -, rfl⟩ := hs
      exact h.put_mem (hmem _ hvar)
    · cases hs
  | returns e => simp [Statement.exec] at hs
  | returnsEither condition yes no =>
    simp only [Statement.exec] at hs
    split at hs
    · simp at hs
    · cases hs

/-- **A body and its resolved form return the same.** -/
theorem run_resolveAll {f : Frame} {scope : List String} (h : f.HasScope scope)
    (body : List Statement) : run f (resolveAll scope body) = run f body := by
  induction body generalizing f scope with
  | nil => rfl
  | cons s rest ih =>
    simp only [resolveAll, run, s.exec_resolve h]
    cases hs : s.exec f with
    | none => rfl
    | some outcome =>
      cases outcome with
      | goesOn g => exact ih (s.hasScope_of_exec h hs)
      | returned v => cases rest <;> rfl

/-- In a method with the given variables, what is written for a field means the field. -/
theorem resolve_fieldIn {scope locals : List String} (h : ∀ x ∈ scope, x ∈ locals)
    (field : String) : (fieldIn locals field).resolve scope = .ofThis field := by
  by_cases hfield : field ∈ locals
  · simp [fieldIn, hfield, Expr.resolve]
  · have hscope : field ∉ scope := fun hx => hfield (h field hx)
    simp [fieldIn, hfield, Expr.resolve, hscope]

/-! ## Objects -/

/-- An object of a class with the given fields: a value for each that fits its type. -/
structure Object (members : List Member) where
  values : List Value
  length_eq : values.length = members.length
  fits : ∀ p ∈ members.zip values, p.2.fits p.1.type

namespace Object

variable {members : List Member} (o : Object members)

/-- The fields with their values. -/
def fields : List (Member × Value) :=
  members.zip o.values

/-- The value of the field of the given name. -/
def field (name : String) : Option Value :=
  (o.fields.map fun p => (p.1.name, p.2)).lookup name

/-- The types and the values of the fields. -/
def toInstance : Instance :=
  o.fields.map fun p => (p.1.type, p.2)

theorem map_fst_fields : o.fields.map Prod.fst = members :=
  List.map_fst_zip (Nat.le_of_eq o.length_eq.symm)

/-- **Where names are distinct, the name of a field finds its value**, so that the values can be
given by field and not by position. -/
theorem exists_value (distinct : (members.map Member.name).Nodup) :
    ∃ value : Member → Value, o.toInstance = members.map (fun m => (m.type, value m)) ∧
      ∀ m ∈ members, o.field m.name = some (value m) ∧ (value m).fits m.type := by
  have hnames : ((o.fields.map fun p => (p.1.name, p.2)).map Prod.fst).Nodup := by
    rw [← o.map_fst_fields, List.map_map] at distinct
    rw [List.map_map]
    exact distinct
  have hfound : ∀ p ∈ o.fields, o.field p.1.name = some p.2 := fun p hp =>
    lookup_of_mem hnames (List.mem_map.2 ⟨p, hp, rfl⟩)
  refine ⟨fun m => (o.field m.name).getD (.reference none), ?_, ?_⟩
  · have hmap := congrArg (List.map fun m : Member =>
      (m.type, (o.field m.name).getD (.reference none))) o.map_fst_fields
    rw [← hmap, List.map_map]
    apply List.map_congr_left
    intro p hp
    simp [hfound p hp]
  · intro m hm
    rw [← o.map_fst_fields] at hm
    obtain ⟨p, hp, rfl⟩ := List.mem_map.1 hm
    simp only [hfound p hp, Option.getD_some, true_and]
    exact o.fits p hp

end Object

end Java

end ValueClass
