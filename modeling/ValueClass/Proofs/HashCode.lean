import ValueClass.Proofs.Evaluation

/-!
# What `hashCode` returns

The body of `hashCode` is a list of statements that keep the hash code so far in the variable
`result`, and the word of a double precision number in `temp`. It returns the hash code of the
instance, whatever the fields are called.

* `Adding`: the variables between the statements of two fields.
* `run_addingStatements`: the statements of the fields take `result` through the hash codes of the
  fields, one after the other.
* `resolveAll_hashStatements`: **every name that should mean a field means it.**
* `run_hashStatements`: **the body returns the hash code.** It declares `temp` once if there is a
  field of double precision, and never otherwise.
-/

namespace ValueClass.Java

/-- The two halves of a word, laid over each other by the operators of the language. -/
theorem toInt32_xor_shift (n : Int64) :
    (n ^^^ (n.toUInt64 >>> 32).toInt64).toInt32 = foldWord n := by
  unfold foldWord
  apply Int32.toBitVec.inj
  simp [BitVec.signExtend_eq_setWidth_of_le]

theorem eval_folded {f : Frame} {e : Expr} {n : Int64} (h : e.eval f = some (.long n)) :
    (folded e).eval f = some (.int (foldWord n)) := by
  simp [folded, Expr.eval, h, shiftedBy32, castToInt, arithmetic, operands, Value.toInt?,
    Value.toLong?, ← toInt32_xor_shift]

/-- **What a field adds.** The word of a double precision number has to be in `temp`. -/
theorem eval_contribution (library : LibrarySpelling) {type : FieldType} {name : String}
    {v : Value} {f : Frame} (hfield : f.this name = some v) (hv : v.fits type)
    (htemp : ∀ bits, v = .double bits →
      f.locals "temp" = some (some (.long (doubleWord bits)))) :
    ∃ w part, (contribution library type (.ofThis name)).eval f = some w ∧
      w.toInt? = some part ∧ hashOf type v = .ok part := by
  have heval : (Expr.ofThis name).eval f = some v := hfield
  cases type with
  | scalar kind =>
    have hkind := fits_scalar hv
    cases v with
    | boolean b =>
      cases hkind
      refine ⟨.int (if b then trueHash else falseHash), _, ?_, rfl, rfl⟩
      cases b <;> simp [contribution, FieldType.hashRule, Expr.eval, hfield]
    | byte n | short n | int n | char n =>
      cases hkind
      exact ⟨_, _, heval, rfl, rfl⟩
    | long n =>
      cases hkind
      exact ⟨_, _, eval_folded heval, rfl, rfl⟩
    | float bits =>
      cases hkind
      refine ⟨.int (floatWord bits), _, ?_, rfl, rfl⟩
      simp [contribution, FieldType.hashRule, Expr.eval, hfield]
    | double bits =>
      cases hkind
      -- the field is not read again: its word was stored by the statement before
      have hword : (Expr.name "temp").eval f = some (.long (doubleWord bits)) := by
        simp [Expr.eval, Frame.read, htemp bits rfl]
      exact ⟨_, _, eval_folded hword, rfl, rfl⟩
    | array items => cases hkind
    | reference text => cases hkind
  | array element =>
    obtain ⟨part, hpart, harray⟩ := arrayHash_of_fits hv
    refine ⟨.int part, part, ?_, rfl, hpart⟩
    cases element <;>
      simpa [contribution, FieldType.hashRule, FieldType.isNestedArray, Expr.eval, hfield]
        using harray
  | reference className arguments =>
    obtain ⟨text, rfl⟩ := fits_reference hv
    cases text with
    | none =>
      refine ⟨.int 0, 0, ?_, rfl, rfl⟩
      simp [contribution, FieldType.hashRule, Expr.eval, hfield, sameValue]
    | some text =>
      refine ⟨.int (textHash text), textHash text, ?_, rfl, rfl⟩
      simp [contribution, FieldType.hashRule, Expr.eval, hfield, sameValue]

/-- **The variables between the statements of two fields**, with the hash code so far. `temp` is
declared or not. -/
structure Adding (fields : String → Option Value) (declared : Bool) (result : Int32) (f : Frame) :
    Prop where
  this : f.this = fields
  prime : f.locals "prime" = some (some (.int hashPrime))
  result : f.locals "result" = some (some (.int result))
  temp : declared = true → ∃ word, f.locals "temp" = some (some (.long word))
  noTemp : declared = false → f.locals "temp" = none

variable {fields : String → Option Value} {declared : Bool} {result : Int32} {f : Frame}

theorem Adding.put_temp (h : Adding fields declared result f) (word : Int64) :
    Adding fields true result (f.put "temp" (some (.long word))) where
  this := h.this
  prime := (Frame.put_locals_ne (by decide)).trans h.prime
  result := (Frame.put_locals_ne (by decide)).trans h.result
  temp := fun _ => ⟨word, Frame.put_locals_self⟩
  noTemp := nofun

theorem Adding.put_result (h : Adding fields declared result f) (code : Int32) :
    Adding fields declared code (f.put "result" (some (.int code))) where
  this := h.this
  prime := (Frame.put_locals_ne (by decide)).trans h.prime
  result := Frame.put_locals_self
  temp := fun hd => (h.temp hd).imp fun _ hw => (Frame.put_locals_ne (by decide)).trans hw
  noTemp := fun hd => (Frame.put_locals_ne (by decide)).trans (h.noTemp hd)

/-- The statement that stores the word of a double precision number, which declares `temp` if that
has not been done. -/
theorem Adding.exec_store (h : Adding fields declared result f) (owner : String) {name : String}
    {bits : UInt64} (hfield : fields name = some (.double bits)) :
    (if declared then Statement.assign "temp" (.doubleBits owner (.ofThis name))
      else .declareLong "temp" (.doubleBits owner (.ofThis name))).exec f =
      some (.goesOn (f.put "temp" (some (.long (doubleWord bits))))) := by
  have hthis : f.this name = some (.double bits) := by rw [h.this, hfield]
  cases declared with
  | true =>
    obtain ⟨word, hword⟩ := h.temp rfl
    simp [Statement.exec, hword, Expr.eval, hthis, Value.toLong?]
  | false => simp [Statement.exec, h.noTemp rfl, Expr.eval, hthis, Value.toLong?]

/-- The statement that adds a field. -/
theorem Adding.exec_add (h : Adding fields declared result f) {library : LibrarySpelling}
    {m : Member} {w : Value} {part : Int32}
    (he : (contribution library m.type (.ofThis m.name)).eval f = some w)
    (hw : w.toInt? = some part) :
    (addStatement library .ofThis m).exec f =
      some (.goesOn (f.put "result" (some (.int (addPart result part))))) := by
  have hproduct : (Expr.product (.name "prime") (.name "result")).eval f =
      some (.int (hashPrime * result)) := by
    simp only [Expr.eval, Frame.read, h.prime, h.result, Option.bind_some]
    exact arithmetic_ints rfl rfl
  have hsum : (Expr.sum (.product (.name "prime") (.name "result"))
      (contribution library m.type (.ofThis m.name))).eval f =
      some (.int (addPart result part)) := by
    rw [Expr.eval, hproduct, he]
    exact arithmetic_ints rfl hw
  simp [addStatement, Statement.exec, h.result, hsum, Value.toInt?]

theorem hashRule_eq_foldedDouble {type : FieldType} :
    type.hashRule = .foldedDouble ↔ type = .scalar .double := by
  cases type with
  | scalar kind => cases kind <;> simp [FieldType.hashRule]
  | array element => cases element <;> simp [FieldType.hashRule]
  | reference name arguments => simp [FieldType.hashRule]

theorem exists_double_iff {type : FieldType} {v : Value} (hv : v.fits type) :
    (∃ bits, v = .double bits) ↔ type = .scalar .double := by
  constructor
  · rintro ⟨bits, rfl⟩
    cases type with
    | scalar kind => cases fits_scalar hv; rfl
    | _ => simp [Value.fits] at hv
  · rintro rfl
    exact fits_double hv

/-- **The statements of one field** take `result` to the next hash code. -/
theorem run_addingStatements_cons (library : LibrarySpelling) (h : Adding fields declared result f)
    {m : Member} {v : Value} (hfield : fields m.name = some v) (hv : v.fits m.type)
    (members : List Member) (rest : List Statement) :
    ∃ part declared' g, hashOf m.type v = .ok part ∧
      Adding fields declared' (addPart result part) g ∧
      run f (addingStatements library .ofThis declared (m :: members) ++ rest) =
        run g (addingStatements library .ofThis declared' members ++ rest) := by
  by_cases hdouble : m.type = .scalar .double
  · obtain ⟨bits, rfl⟩ := (exists_double_iff hv).2 hdouble
    have hrule := hashRule_eq_foldedDouble.2 hdouble
    -- `temp` holds the word of this field when `result` is assigned
    have hstored := h.put_temp (doubleWord bits)
    have hthis : (f.put "temp" (some (.long (doubleWord bits)))).this m.name =
        some (.double bits) := by rw [hstored.this, hfield]
    obtain ⟨w, part, hw, hpart, hhash⟩ := eval_contribution library hthis hv
      (fun _ hbits => by cases hbits; exact Frame.put_locals_self)
    refine ⟨part, true, _, hhash, hstored.put_result (addPart result part), ?_⟩
    simp only [addingStatements, hrule, if_true, List.cons_append]
    rw [run_goesOn (h.exec_store library.doubleInHash hfield),
      run_goesOn (hstored.exec_add hw hpart)]
  · have hrule : m.type.hashRule ≠ .foldedDouble := mt hashRule_eq_foldedDouble.1 hdouble
    have hthis : f.this m.name = some v := by rw [h.this, hfield]
    obtain ⟨w, part, hw, hpart, hhash⟩ := eval_contribution library hthis hv
      (fun bits hbits => absurd ((exists_double_iff hv).1 ⟨bits, hbits⟩) hdouble)
    refine ⟨part, declared, _, hhash, h.put_result (addPart result part), ?_⟩
    simp only [addingStatements, hrule, if_false, List.cons_append]
    rw [run_goesOn (h.exec_add hw hpart)]

/-- **The statements of all fields** take `result` through their hash codes. -/
theorem run_addingStatements (library : LibrarySpelling) {members : List Member}
    {value : Member → Value}
    (hvalue : ∀ m ∈ members, fields m.name = some (value m) ∧ (value m).fits m.type)
    (h : Adding fields declared result f) (rest : List Statement) :
    ∃ code declared' g, hashFields result (members.map fun m => (m.type, value m)) = .ok code ∧
      Adding fields declared' code g ∧
      run f (addingStatements library .ofThis declared members ++ rest) = run g rest := by
  induction members generalizing declared result f with
  | nil => exact ⟨result, declared, f, rfl, h, rfl⟩
  | cons m members ih =>
    obtain ⟨hfield, hv⟩ := hvalue m List.mem_cons_self
    obtain ⟨part, declared₁, g₁, hpart, h₁, hrun₁⟩ :=
      run_addingStatements_cons library h hfield hv members rest
    obtain ⟨code, declared₂, g₂, hcode, h₂, hrun₂⟩ :=
      ih (fun m' hm' => hvalue m' (List.mem_cons_of_mem _ hm')) h₁
    refine ⟨code, declared₂, g₂, ?_, h₂, ?_⟩
    · simpa only [List.map_cons, hashFields, hpart] using hcode
    · rw [hrun₁, hrun₂]

/-- The frame in which `hashCode` starts. -/
def Object.hashFrame {members : List Member} (o : Object members) : Frame where
  locals := fun _ => none
  this := o.field
  that := fun _ => none
  helper := none

/-- The body with `this.` before each field returns the hash code. -/
theorem run_hashBody (library : LibrarySpelling) {members : List Member}
    (distinct : (members.map Member.name).Nodup) (o : Object members) :
    ∃ code, o.toInstance.hashCode = .ok code ∧
      run o.hashFrame (hashBody library .ofThis members) = some (.int code) := by
  set f₁ := o.hashFrame.put "prime" (some (.int hashPrime)) with hf₁
  set f₂ := f₁.put "result" (some (.int hashSeed)) with hf₂
  have hprime : f₁.locals "prime" = some (some (.int hashPrime)) := Frame.put_locals_self
  have hothers : ∀ x, x ≠ "prime" → f₁.locals x = none := fun x hx => Frame.put_locals_ne hx
  have hstart : Adding o.field false hashSeed f₂ :=
    { this := rfl
      prime := (Frame.put_locals_ne (by decide)).trans hprime
      result := Frame.put_locals_self
      temp := nofun
      noTemp := fun _ => (Frame.put_locals_ne (by decide)).trans (hothers _ (by decide)) }
  obtain ⟨value, hinstance, hvalue⟩ := o.exists_value distinct
  obtain ⟨code, declared, g, hcode, hg, hrun⟩ :=
    run_addingStatements library hvalue hstart [.returns (.name "result")]
  rw [← hinstance] at hcode
  refine ⟨code, hcode, ?_⟩
  have hexec₁ : (Statement.declareInt "prime" (.number hashPrime)).exec o.hashFrame =
      some (.goesOn f₁) := rfl
  have hexec₂ : (Statement.declareInt "result" (.number hashSeed)).exec f₁ =
      some (.goesOn f₂) := by
    simp [Statement.exec, hothers, Expr.eval, Value.toInt?, hf₂]
  simp only [hashBody, List.cons_append]
  rw [run_goesOn hexec₁, run_goesOn hexec₂, hrun]
  simp [run, Statement.exec, Expr.eval, Frame.read, hg.result]

/-! ## Names in the body -/

@[simp] theorem addStatement_declared (library : LibrarySpelling) (field : String → Expr)
    (m : Member) : (addStatement library field m).declared = [] := rfl

theorem resolve_contribution (library : LibrarySpelling) {type : FieldType} {scope : List String}
    (htemp : type = .scalar .double → "temp" ∈ scope) (field : Expr) :
    (contribution library type field).resolve scope =
      contribution library type (field.resolve scope) := by
  unfold contribution
  cases hrule : type.hashRule with
  | foldedDouble =>
    have hmem := htemp (hashRule_eq_foldedDouble.1 hrule)
    simp [folded, Expr.resolve, hmem]
  | _ => simp [folded, Expr.resolve]

/-- What the variables in scope have to be between the statements of two fields. -/
structure AddingScope (declared : Bool) (scope : List String) : Prop where
  subset : ∀ x ∈ scope, x ∈ hashVariables
  prime : "prime" ∈ scope
  result : "result" ∈ scope
  temp : declared = true → "temp" ∈ scope

theorem AddingScope.cons_temp {scope : List String} (h : AddingScope declared scope) :
    AddingScope true ("temp" :: scope) where
  subset := by
    intro x hx
    rcases List.mem_cons.1 hx with rfl | hx
    · decide
    · exact h.subset x hx
  prime := List.mem_cons_of_mem _ h.prime
  result := List.mem_cons_of_mem _ h.result
  temp := fun _ => List.mem_cons_self

theorem AddingScope.resolve_addStatement {scope : List String} (h : AddingScope declared scope)
    (library : LibrarySpelling) {m : Member} (htemp : m.type = .scalar .double → "temp" ∈ scope) :
    (addStatement library (fieldIn hashVariables) m).resolve scope =
      addStatement library .ofThis m := by
  simp [addStatement, Statement.resolve, Expr.resolve, h.prime, h.result,
    resolve_contribution library htemp, resolve_fieldIn h.subset]

theorem resolveAll_addingStatements (library : LibrarySpelling) (members : List Member)
    {scope : List String} (h : AddingScope declared scope) :
    resolveAll scope (addingStatements library (fieldIn hashVariables) declared members ++
        [.returns (.name "result")]) =
      addingStatements library .ofThis declared members ++ [.returns (.name "result")] := by
  induction members generalizing declared scope with
  | nil => simp [addingStatements, resolveAll, Statement.resolve, Expr.resolve, h.result]
  | cons m members ih =>
    by_cases hdouble : m.type = .scalar .double
    · have hrule := hashRule_eq_foldedDouble.2 hdouble
      have hscope := h.cons_temp
      cases declared with
      | true =>
        simp only [addingStatements, hrule, if_true, List.cons_append, resolveAll,
          addStatement_declared, Statement.declared_assign, List.nil_append]
        rw [h.resolve_addStatement library (fun _ => h.temp rfl), ih h]
        simp [Statement.resolve, Expr.resolve, resolve_fieldIn h.subset]
      | false =>
        simp only [addingStatements, hrule, if_true, Bool.false_eq_true, if_false,
          List.cons_append, resolveAll, addStatement_declared, Statement.declared_declareLong,
          List.nil_append]
        rw [hscope.resolve_addStatement library (fun _ => hscope.temp rfl), ih hscope]
        simp [Statement.resolve, Expr.resolve, resolve_fieldIn hscope.subset]
    · have hrule : m.type.hashRule ≠ .foldedDouble := mt hashRule_eq_foldedDouble.1 hdouble
      simp only [addingStatements, hrule, if_false, List.cons_append, resolveAll,
        addStatement_declared, List.nil_append]
      rw [h.resolve_addStatement library (fun htype => absurd htype hdouble), ih h]

/-- **Every name that should mean a field means it**: resolving the body puts `this.` before each
field, and before nothing else. -/
theorem resolveAll_hashStatements (library : LibrarySpelling) (members : List Member) :
    resolveAll [] (hashStatements library members) = hashBody library .ofThis members := by
  have hscope : AddingScope false ["result", "prime"] :=
    ⟨by decide, by decide, by decide, nofun⟩
  simp only [hashStatements, hashBody, List.cons_append, resolveAll, Statement.resolve,
    Expr.resolve, Statement.declared_declareInt, List.nil_append]
  rw [resolveAll_addingStatements library members hscope]

/-- The variables that a body declares, in order. -/
def declaredIn (body : List Statement) : List String :=
  body.flatMap Statement.declared

theorem declaredIn_addingStatements (library : LibrarySpelling) (field : String → Expr)
    (declared : Bool) (members : List Member) :
    declaredIn (addingStatements library field declared members) =
      if declared = false ∧ ∃ m ∈ members, m.type = .scalar .double then ["temp"] else [] := by
  induction members generalizing declared with
  | nil => simp [addingStatements, declaredIn]
  | cons m members ih =>
    unfold declaredIn at ih ⊢
    by_cases hdouble : m.type = .scalar .double
    · have hrule := hashRule_eq_foldedDouble.2 hdouble
      have hsome : ∃ m' ∈ m :: members, m'.type = .scalar .double :=
        ⟨m, List.mem_cons_self, hdouble⟩
      cases declared with
      | true => simp [addingStatements, hrule, ih]
      | false =>
        rw [if_pos ⟨rfl, hsome⟩]
        simp [addingStatements, hrule, ih]
    · have hrule : m.type.hashRule ≠ .foldedDouble := mt hashRule_eq_foldedDouble.1 hdouble
      simp [addingStatements, hrule, hdouble, ih]

/-- The names that stand by themselves in an expression. -/
def Expr.names : Expr → List String
  | .name id => [id]
  | .ofThis _ | .ofThat _ | .null | .number _ | .truth => []
  | .product a b | .sum a b | .exclusiveOr a b | .same a b | .arrayEquals _ _ a b
  | .nullSafeEquals a b | .objectEquals a b | .both a b => a.names ++ b.names
  | .upperHalf e | .toInt e | .objectHash e | .floatBits _ e | .doubleBits _ e
  | .arrayHash _ _ e => e.names
  | .choice condition yes no => condition.names ++ yes.names ++ no.names

/-- The names that a statement uses, other than to declare them. -/
def Statement.names : Statement → List String
  | .declareInt _ e | .declareLong _ e | .returns e => e.names
  | .assign id e => id :: e.names
  | .returnsEither condition yes no => condition.names ++ yes.names ++ no.names

/-- **No statement uses a variable before one declares it.** -/
def DeclaredFirst (id : String) : List Statement → Prop
  | [] => True
  | s :: rest => id ∉ s.names ∧ (id ∈ s.declared ∨ DeclaredFirst id rest)

theorem not_mem_names_fieldIn {locals : List String} {id : String} (h : id ∈ locals)
    (field : String) : id ∉ (fieldIn locals field).names := by
  by_cases hfield : field ∈ locals
  · simp [fieldIn, hfield, Expr.names]
  · have hne : id ≠ field := fun heq => hfield (heq ▸ h)
    simp [fieldIn, hfield, Expr.names, hne]

theorem not_mem_names_contribution (library : LibrarySpelling) {type : FieldType}
    (htype : type ≠ .scalar .double) {id : String} {field : Expr} (h : id ∉ field.names) :
    id ∉ (contribution library type field).names := by
  unfold contribution
  cases hrule : type.hashRule with
  | foldedDouble => exact absurd (hashRule_eq_foldedDouble.1 hrule) htype
  | _ => simp [folded, Expr.names, h]

theorem declaredFirst_temp (library : LibrarySpelling) (members : List Member) :
    DeclaredFirst "temp" (addingStatements library (fieldIn hashVariables) false members ++
      [.returns (.name "result")]) := by
  induction members with
  | nil => simp [addingStatements, DeclaredFirst, Statement.names, Expr.names]
  | cons m members ih =>
    have hfield : "temp" ∉ (fieldIn hashVariables m.name).names :=
      not_mem_names_fieldIn (by decide) m.name
    by_cases hdouble : m.type = .scalar .double
    · have hrule := hashRule_eq_foldedDouble.2 hdouble
      simp [addingStatements, hrule, DeclaredFirst, Statement.names, Expr.names, hfield]
    · have hrule : m.type.hashRule ≠ .foldedDouble := mt hashRule_eq_foldedDouble.1 hdouble
      have hcontribution := not_mem_names_contribution library hdouble hfield
      simp only [addingStatements, hrule, if_false, List.cons_append, DeclaredFirst]
      refine ⟨?_, Or.inr ih⟩
      simp [addStatement, Statement.names, Expr.names, hcontribution]

theorem declaredFirst_hashStatements (library : LibrarySpelling) (members : List Member) :
    ∀ id ∈ hashVariables, DeclaredFirst id (hashStatements library members) := by
  intro id hid
  simp only [hashVariables, List.mem_cons, List.not_mem_nil, or_false] at hid
  rcases hid with rfl | rfl | rfl
  · simp [hashStatements, hashBody, DeclaredFirst, Statement.names, Expr.names]
  · simp [hashStatements, hashBody, DeclaredFirst, Statement.names, Expr.names]
  · have h := declaredFirst_temp library members
    simp [hashStatements, hashBody, DeclaredFirst, Statement.names, Expr.names, h]

theorem exists_run_hashStatements (library : LibrarySpelling) {members : List Member}
    (distinct : (members.map Member.name).Nodup) (o : Object members) :
    ∃ code, o.toInstance.hashCode = .ok code ∧
      run o.hashFrame (hashStatements library members) = some (.int code) := by
  obtain ⟨code, hcode, hrun⟩ := run_hashBody library distinct o
  have hscope : o.hashFrame.HasScope [] := by simp [Frame.HasScope, Object.hashFrame]
  exact ⟨code, hcode, by rw [← run_resolveAll hscope, resolveAll_hashStatements, hrun]⟩

/-- **`hashCode` returns the hash code of the instance**, whatever its fields are called. Each
variable is declared once and before it is used, `temp` if and only if a field has double precision,
and no field is hidden where it is meant. -/
theorem run_hashStatements (library : LibrarySpelling) {members : List Member}
    (distinct : (members.map Member.name).Nodup) (o : Object members) :
    (∃ code, o.toInstance.hashCode = .ok code ∧
      run o.hashFrame (hashStatements library members) = some (.int code)) ∧
    declaredIn (hashStatements library members) =
      ["prime", "result"] ++ (if ∃ m ∈ members, m.type = .scalar .double then ["temp"] else []) ∧
    (∀ id ∈ hashVariables, DeclaredFirst id (hashStatements library members)) ∧
    resolveAll [] (hashStatements library members) = hashBody library .ofThis members := by
  refine ⟨exists_run_hashStatements library distinct o, ?_,
    declaredFirst_hashStatements library members, resolveAll_hashStatements library members⟩
  have hadding := declaredIn_addingStatements library (fieldIn hashVariables) false members
  unfold declaredIn at hadding ⊢
  simp [hashStatements, hashBody, hadding]

/-- A class whose fields are called like the variables, two of them of double precision. -/
theorem run_hashStatements_hidden_fields :
    let library : LibrarySpelling := ⟨"Object", "@Override", "Float", "Double", "java.lang.Float",
      "java.lang.Double", "java.util.Arrays"⟩
    let members : List Member :=
      [⟨"temp", "", .scalar .double, "double"⟩, ⟨"result", "", .scalar .long, "long"⟩,
        ⟨"prime", "", .scalar .double, "double"⟩]
    let o : Object members :=
      ⟨[.double 0x7ff0000000000001, .long (-1), .double 0], by decide, by decide⟩
    (members.map Member.name).Nodup ∧
      ∃ code, o.toInstance.hashCode = .ok code ∧
        run o.hashFrame (hashStatements library members) = some (.int code) :=
  ⟨by decide, (run_hashStatements _ (by decide) _).1⟩

end ValueClass.Java
