import ValueClass.Proofs.Tokens

/-!
# Reading expressions

What the text of an expression means is settled by how the language is read: which marks bind more
strongly than others, and that what binds alike is grouped from the left. Here expressions are read
in this way, as far as they are of the forms in use. What is of another form is not read at all.

* `readExpr`: the reader. `readLevel` reads what binds at least as strongly as a level asks for.
* `Ends`: the tokens after an expression do not go on with it.
* `Reads`: reading comes to an expression and goes on after it.
* `reads_of_readable`: **every expression that can be read again is read again.**
-/

namespace ValueClass.Java

variable {e : Expr} {rest tokens : List Token} {level top : Nat} {path : List String}

/-! ## Readers -/

/-- The number that a word stands for. -/
def number? (word : String) : Option Int32 :=
  if word.toList.all Char.isDigit then some (.ofInt (Nat.ofDigitChars 10 word.toList 0)) else none

/-- What words with dots between them stand for, if no brackets follow. -/
def named? : List String → Option Expr
  | ["null"] => some .null
  | ["true"] => some .truth
  | [word] =>
    match number? word with
    | some n => some (.number n)
    | none => if word ∈ reservedWords then none else some (.name word)
  | ["this", field] => some (.ofThis field)
  | ["that", field] => some (.ofThat field)
  | _ => none

/-- The call of a method of this class. -/
def ownCall? : String → List Expr → Option Expr
  | "equals", [a, b] => some (.nullSafeEquals a b)
  | _, _ => none

/-- The call of a method of an object or of a class of the library, which differ in the number of
arguments. -/
def memberCall? (owner : List String) : String → List Expr → Option Expr
  | "hashCode", [] => (named? owner).map .objectHash
  | "equals", [b] => (named? owner).map (.objectEquals · b)
  | "floatToIntBits", [e] => some (.floatBits (String.intercalate "." owner) e)
  | "doubleToLongBits", [e] => some (.doubleBits (String.intercalate "." owner) e)
  | "hashCode", [e] => some (.arrayHash (String.intercalate "." owner) false e)
  | "deepHashCode", [e] => some (.arrayHash (String.intercalate "." owner) true e)
  | "equals", [a, b] => some (.arrayEquals (String.intercalate "." owner) false a b)
  | "deepEquals", [a, b] => some (.arrayEquals (String.intercalate "." owner) true a b)
  | _, _ => none

/-- What words with dots between them and arguments in brackets stand for. -/
def call? (path : List String) (arguments : List Expr) : Option Expr :=
  match path.dropLast with
  | [] => ownCall? (path.getLast?.getD "") arguments
  | owner => memberCall? owner (path.getLast?.getD "") arguments

/-- The words that dots join to one in front. -/
def readPath : List Token → List String × List Token
  | .mark '.' :: .word word :: rest =>
    let (path, rest) := readPath rest
    (word :: path, rest)
  | tokens => ([], tokens)

/-- The operator that a token stands for, with its level. -/
def Token.operator? : Token → Option (Nat × (Expr → Expr → Expr))
  | .both => some (1, .both)
  | .mark '^' => some (2, .exclusiveOr)
  | .same => some (3, .same)
  | .mark '+' => some (5, .sum)
  | .mark '*' => some (6, .product)
  | _ => none

/-! Where reading goes on after an expression, what is left has to be shorter than what was
there. -/

mutual

/-- **Reads an expression**, and gives what comes after it. -/
def readExpr (tokens : List Token) : Option (Expr × List Token) := do
  let (condition, rest) ← readLevel 1 tokens
  match rest with
  | .mark '?' :: after =>
    if _ : after.length < tokens.length then
      let (yes, rest) ← readExpr after
      match rest with
      | .mark ':' :: after =>
        if _ : after.length < tokens.length then
          let (no, rest) ← readExpr after
          return (.choice condition yes no, rest)
        else none
      | _ => none
    else none
  | _ => return (condition, rest)
termination_by (tokens.length, 9)

/-- Reads what binds at least as strongly as a level asks for. -/
def readLevel (level : Nat) (tokens : List Token) : Option (Expr × List Token) :=
  if level < 7 then do
    let (first, rest) ← readLevel (level + 1) tokens
    if _ : rest.length < tokens.length then readMore level first rest else none
  else readUnary tokens
termination_by (tokens.length, 7 - level + 1)

/-- Reads on after the left side of an operator of a level, if there is one. -/
def readMore (level : Nat) (left : Expr) (tokens : List Token) : Option (Expr × List Token) :=
  match tokens with
  | .shift :: .word "32" :: rest =>
    if level = 4 then readMore level (.upperHalf left) rest else some (left, tokens)
  | token :: after =>
    match token.operator? with
    | some (found, combine) =>
      if found = level then do
        let (right, rest) ← readLevel (level + 1) after
        if _ : rest.length < after.length then readMore level (combine left right) rest else none
      else some (left, tokens)
    | none => some (left, tokens)
  | [] => some (left, [])
termination_by (tokens.length, 0)

/-- Reads what no operator divides. -/
def readUnary (tokens : List Token) : Option (Expr × List Token) :=
  match tokens with
  | .mark '(' :: .word "int" :: .mark ')' :: rest => do
    let (e, rest) ← readUnary rest
    return (.toInt e, rest)
  | .mark '(' :: rest => do
    let (e, rest) ← readExpr rest
    match rest with
    | .mark ')' :: rest => return (e, rest)
    | _ => none
  | .word first :: rest =>
    match readPath rest with
    | (path, .mark '(' :: after) => do
      if _ : after.length < rest.length then
        let (arguments, rest) ← readArguments after
        let e ← call? (first :: path) arguments
        return (e, rest)
      else none
    | (path, rest) => do
      let e ← named? (first :: path)
      return (e, rest)
  | _ => none
termination_by (tokens.length, 0)

/-- Reads arguments up to the closing bracket. -/
def readArguments (tokens : List Token) : Option (List Expr × List Token) :=
  if tokens.head? = some (.mark ')') then some ([], tokens.tail)
  else do
    let (e, rest) ← readExpr tokens
    match rest with
    | .mark ',' :: after =>
      if _ : after.length < tokens.length then
        let (arguments, rest) ← readArguments after
        return (e :: arguments, rest)
      else none
    | .mark ')' :: rest => return ([e], rest)
    | _ => none
termination_by (tokens.length, 10)

end

/-! ## Where an expression ends -/

/-- The level at which a token goes on with an expression in front of it. Dots and brackets go on
with names. -/
def Token.level? : Token → Option Nat
  | .mark '?' => some 0
  | .shift => some 4
  | .mark '.' | .mark '(' => some 8
  | token => token.operator?.map (·.1)

/-- No token follows that an expression of a level goes on with. -/
def Ends (level : Nat) (tokens : List Token) : Prop :=
  ∀ token ∈ tokens.head?, ∀ found ∈ token.level?, found < level

theorem Ends.mono (h : Ends level tokens) (hle : level ≤ top) : Ends top tokens :=
  fun token htoken found hfound => Nat.lt_of_lt_of_le (h token htoken found hfound) hle

theorem ends_cons {token : Token} (h : ∀ found ∈ token.level?, found < level) :
    Ends level (token :: rest) := by
  rintro other ⟨⟩
  exact h

theorem ends_mark (c : Char) (h : (Token.mark c).level? = none) (level : Nat) (rest : List Token) :
    Ends level (.mark c :: rest) := by
  refine ends_cons fun found hfound => ?_
  rw [h] at hfound
  cases hfound

theorem level?_of_operator? {token : Token} {found : Nat} {combine : Expr → Expr → Expr}
    (h : token.operator? = some (found, combine)) : token.level? = some found := by
  unfold Token.level?
  split
  · cases h
  · cases h
  · cases h
  · cases h
  · rw [h]
    rfl

/-- Where an expression ends, nothing more is read. -/
theorem readMore_of_ends (h : Ends level rest) : readMore level e rest = some (e, rest) := by
  rw [readMore.eq_def]
  split
  · rename_i rest'
    rw [if_neg]
    rintro rfl
    exact absurd (h _ rfl 4 rfl) (by decide)
  · rename_i token rest' _
    split
    · rename_i found combine hoperator
      rw [if_neg]
      rintro rfl
      exact absurd (h token rfl found (level?_of_operator? hoperator)) (Nat.lt_irrefl found)
    · rfl
  · rfl

/-! ## Levels -/

theorem readLevel_of_lt (h : level < 7) {first : Expr}
    (hfirst : readLevel (level + 1) tokens = some (first, rest))
    (hshorter : rest.length < tokens.length) :
    readLevel level tokens = readMore level first rest := by
  rw [readLevel, if_pos h, hfirst]
  dsimp only [Option.bind_eq_bind, Option.bind_some]
  rw [dif_pos hshorter]

/-- **Reading comes to an expression and goes on after it**, on the level of the expression and on
all below. -/
def Reads (e : Expr) : Prop :=
  ∀ level rest, level ≤ e.level → Ends (level + 1) rest →
    readLevel level (e.tokens ++ rest) = readMore level e rest

theorem tokens_ne_nil (e : Expr) : e.tokens ≠ [] := by
  cases e with
  | name _ | ofThis _ | ofThat _ | null | number _ | truth => exact List.cons_ne_nil _ _
  | _ => simp [Expr.tokens, callTokens]

theorem length_lt_tokens (e : Expr) (rest : List Token) :
    rest.length < (e.tokens ++ rest).length := by
  have hpos := List.length_pos_of_ne_nil (tokens_ne_nil e)
  rw [List.length_append]
  omega

theorem level_le (e : Expr) : 1 ≤ e.level ∧ e.level ≤ 7 := by
  cases e <;> simp [Expr.level]

/-- What binds more strongly than a level asks for is read on that level too. -/
theorem reads_of_level
    (h : ∀ rest, Ends (e.level + 1) rest →
      readLevel e.level (e.tokens ++ rest) = readMore e.level e rest) : Reads e := by
  intro level rest hle hends
  induction hle using Nat.decreasingInduction with
  | self => exact h rest hends
  | of_succ level hlt ih =>
    have hlevel := (level_le e).2
    have hnext := ih (hends.mono (by omega))
    rw [readMore_of_ends hends] at hnext
    exact readLevel_of_lt (by omega) hnext (length_lt_tokens e rest)

theorem readLevel_of_le (hle : level ≤ top) (htop : top ≤ 7)
    (h : readLevel top tokens = some (e, rest)) (hshorter : rest.length < tokens.length)
    (hends : Ends level rest) : readLevel level tokens = some (e, rest) := by
  induction hle using Nat.decreasingInduction with
  | self => exact h
  | of_succ level hlt ih =>
    have hnext := ih (hends.mono (by omega))
    rw [readLevel_of_lt (by omega) hnext hshorter, readMore_of_ends hends]

theorem readExpr_of_readLevel (h : readLevel 1 tokens = some (e, rest)) (hends : Ends 0 rest) :
    readExpr tokens = some (e, rest) := by
  rw [readExpr, h]
  dsimp only [Option.bind_eq_bind, Option.bind_some]
  split
  · exact absurd (hends _ rfl 0 rfl) (by decide)
  · rfl

theorem Reads.readLevel (h : Reads e) (hle : level ≤ e.level) (hends : Ends level rest) :
    readLevel level (e.tokens ++ rest) = some (e, rest) := by
  rw [h level rest hle (hends.mono (by omega)), readMore_of_ends hends]

/-- An expression that ends where it ends is read as it is. -/
theorem Reads.readExpr (h : Reads e) (hends : Ends 0 rest) :
    readExpr (e.tokens ++ rest) = some (e, rest) :=
  readExpr_of_readLevel (h.readLevel (level_le e).1 (hends.mono (by omega))) hends

theorem level_lt_of_operator? {token : Token} {found : Nat} {combine : Expr → Expr → Expr}
    (h : token.operator? = some (found, combine)) : found < 7 := by
  unfold Token.operator? at h
  split at h <;> cases h <;> decide

/-- No operator is of the highest level. -/
theorem readMore_of_unary (e : Expr) (rest : List Token) : readMore 7 e rest = some (e, rest) := by
  rw [readMore.eq_def]
  split
  · rfl
  · split
    · rename_i hoperator
      rw [if_neg (Nat.ne_of_lt (level_lt_of_operator? hoperator))]
    · rfl
  · rfl

theorem readMore_of_operator {left right : Expr} {token : Token} {combine : Expr → Expr → Expr}
    (hoperator : token.operator? = some (level, combine))
    (hright : readLevel (level + 1) tokens = some (right, rest))
    (hshorter : rest.length < tokens.length) :
    readMore level left (token :: tokens) = readMore level (combine left right) rest := by
  rw [readMore.eq_def]
  split
  · rename_i heq
    obtain ⟨rfl, -⟩ := List.cons.inj heq
    cases hoperator
  · rename_i heq
    obtain ⟨rfl, rfl⟩ := List.cons.inj heq
    rw [hoperator]
    dsimp only
    rw [if_pos rfl, hright]
    dsimp only [Option.bind_eq_bind, Option.bind_some]
    rw [dif_pos hshorter]
  · rename_i heq
    cases heq

/-- **An operator is read between its sides**, of which the left one may be of the same level. -/
theorem reads_operator {a b whole : Expr} {token : Token} {combine : Expr → Expr → Expr}
    (hwhole : combine a b = whole) (htokens : whole.tokens = a.tokens ++ [token] ++ b.tokens)
    (hoperator : token.operator? = some (whole.level, combine)) (ha : Reads a)
    (hale : whole.level ≤ a.level) (hb : Reads b) (hble : whole.level + 1 ≤ b.level) :
    Reads whole := by
  refine reads_of_level fun rest hends => ?_
  have htoken : Ends (whole.level + 1) (token :: (b.tokens ++ rest)) := by
    refine ends_cons fun found hfound => ?_
    rw [level?_of_operator? hoperator] at hfound
    cases hfound
    exact Nat.lt_succ_self _
  rw [htokens, List.append_assoc, List.append_assoc, List.singleton_append, ha _ _ hale htoken,
    readMore_of_operator hoperator (hb.readLevel hble hends) (length_lt_tokens b rest), hwhole]

/-! ## Brackets -/

/-- What is read without an operator is read on all levels. -/
theorem reads_of_readUnary (hlevel : e.level = 7)
    (h : ∀ rest, Ends 8 rest → readUnary (e.tokens ++ rest) = some (e, rest)) : Reads e := by
  refine reads_of_level fun rest hends => ?_
  rw [hlevel] at hends ⊢
  rw [readLevel, if_neg (by decide), h rest hends, readMore_of_unary]

/-- An expression starts neither with the word of a cast nor with a closing bracket. -/
def StartsWell (tokens : List Token) : Prop :=
  ∃ token more, tokens = token :: more ∧ token ≠ .word "int" ∧ token ≠ .mark ')'

theorem StartsWell.append (h : StartsWell tokens) (rest : List Token) :
    StartsWell (tokens ++ rest) := by
  obtain ⟨token, more, rfl, hstart⟩ := h
  exact ⟨token, more ++ rest, rfl, hstart⟩

theorem StartsWell.head?_ne (h : StartsWell tokens) : tokens.head? ≠ some (.mark ')') := by
  obtain ⟨token, more, rfl, -, hclosing⟩ := h
  exact fun heq => hclosing (Option.some.inj heq)

theorem startsWell_word {id : String} (h : id ≠ "int") (more : List Token) :
    StartsWell (.word id :: more) :=
  ⟨_, more, rfl, fun heq => h (Token.word.inj heq), nofun⟩

theorem startsWell_mark {c : Char} (h : c ≠ ')') (more : List Token) :
    StartsWell (.mark c :: more) :=
  ⟨_, more, rfl, nofun, fun heq => h (Token.mark.inj heq)⟩

theorem IsIdentifier.ne_int {id : String} (h : IsIdentifier id) : id ≠ "int" := by
  rintro rfl
  exact h.not_reserved (by decide)

theorem startsWell_call {owner method : String} (h : IsDotted owner)
    (arguments : List (List Token)) :
    StartsWell (callTokens (dottedWords owner ++ [method]) arguments) := by
  obtain ⟨first, more, hwords⟩ := List.exists_cons_of_ne_nil (dottedWords_ne_nil owner)
  have hfirst := h first (by simp [hwords])
  rw [hwords]
  exact startsWell_word hfirst.ne_int _

theorem startsWell_tokens (h : e.Readable) : StartsWell e.tokens := by
  induction e with
  | name id => exact startsWell_word h.ne_int _
  | ofThis field | ofThat field | null | truth => exact startsWell_word (by decide) _
  | number n =>
    refine startsWell_word (fun heq => ?_) _
    -- the digits of a number are no letters
    have hdigit : 'i' ∈ Nat.toDigits 10 n.toInt.toNat := by
      rw [← toList_toString h, heq]
      decide
    exact absurd (Nat.isDigit_of_mem_toDigits (by decide) (by decide) hdigit) (by decide)
  | product a b iha _ | sum a b iha _ | exclusiveOr a b iha _ | same a b iha _ | both a b iha _ =>
    exact ((iha h.1.1).append _).append _
  | upperHalf e _ | toInt e _ | choice _ _ _ _ _ _ => exact startsWell_mark (by decide) _
  | objectHash e ih => exact (ih h.1).append _
  | objectEquals a b iha _ => exact (((iha h.1.1).append _).append _).append _
  | floatBits owner e _ | doubleBits owner e _ | arrayHash owner _ e _ =>
    exact startsWell_call h.1 _
  | arrayEquals owner _ a b _ _ => exact startsWell_call h.1 _
  | nullSafeEquals a b _ _ => exact startsWell_word (by decide) _

/-- Brackets are read around an expression. -/
theorem readUnary_of_readExpr (hstart : StartsWell tokens)
    (h : readExpr tokens = some (e, .mark ')' :: rest)) :
    readUnary (.mark '(' :: tokens) = some (e, rest) := by
  rw [readUnary.eq_def]
  split
  · rename_i heq
    obtain ⟨-, rfl⟩ := List.cons.inj heq
    obtain ⟨token, more, heq, hint, -⟩ := hstart
    cases heq
    exact absurd rfl hint
  · rename_i heq
    obtain ⟨-, rfl⟩ := List.cons.inj heq
    rw [h]
    rfl
  · rename_i heq
    cases heq
  · rename_i hbracket _
    exact absurd rfl (hbracket tokens)

/-! ## Names and calls -/

theorem readPath_dottedTokens (hrest : ∀ word more, rest ≠ .mark '.' :: .word word :: more) :
    readPath (dottedTokens path ++ rest) = (path, rest) := by
  induction path with
  | nil =>
    rw [dottedTokens, List.flatMap_nil, List.nil_append, readPath]
    exact hrest
  | cons word path ih =>
    have htokens : dottedTokens (word :: path) ++ rest
        = .mark '.' :: .word word :: (dottedTokens path ++ rest) := rfl
    rw [htokens, readPath, ih]

theorem readUnary_of_named (path : List String) (hne : path ≠ []) (h : named? path = some e)
    (hends : Ends 8 rest) : readUnary (pathTokens path ++ rest) = some (e, rest) := by
  obtain ⟨first, more, rfl⟩ := List.exists_cons_of_ne_nil hne
  have hpath : readPath (dottedTokens more ++ rest) = (more, rest) := by
    refine readPath_dottedTokens ?_
    rintro word after rfl
    exact absurd (hends _ rfl 8 rfl) (by decide)
  rw [pathTokens, List.cons_append, readUnary.eq_def]
  dsimp only
  rw [hpath]
  split
  · rename_i heq
    cases heq
    exact absurd (hends _ rfl 8 rfl) (by decide)
  · rename_i heq
    cases heq
    rw [h]
    rfl

theorem readUnary_of_call {arguments : List Expr} (hne : path ≠ [])
    (harguments : readArguments tokens = some (arguments, rest))
    (h : call? path arguments = some e) :
    readUnary (pathTokens path ++ .mark '(' :: tokens) = some (e, rest) := by
  obtain ⟨first, more, rfl⟩ := List.exists_cons_of_ne_nil hne
  have hpath : readPath (dottedTokens more ++ .mark '(' :: tokens) = (more, .mark '(' :: tokens) :=
    readPath_dottedTokens (by simp)
  have hshorter : tokens.length < (dottedTokens more ++ .mark '(' :: tokens).length := by
    rw [List.length_append, List.length_cons]
    omega
  rw [pathTokens, List.cons_append, readUnary.eq_def]
  dsimp only
  simp only [hpath, hshorter, harguments, h, dif_pos, Option.bind_eq_bind, Option.bind_some]
  rfl

theorem readArguments_nil (rest : List Token) :
    readArguments (.mark ')' :: rest) = some ([], rest) := by
  rw [readArguments, List.head?_cons, if_pos rfl, List.tail_cons]

theorem readArguments_last (hstart : StartsWell tokens)
    (h : readExpr tokens = some (e, .mark ')' :: rest)) :
    readArguments tokens = some ([e], rest) := by
  rw [readArguments, if_neg hstart.head?_ne, h]
  rfl

theorem readArguments_cons {arguments : List Expr} {after : List Token}
    (hstart : StartsWell tokens) (h : readExpr tokens = some (e, .mark ',' :: after))
    (hshorter : after.length < tokens.length)
    (hafter : readArguments after = some (arguments, rest)) :
    readArguments tokens = some (e :: arguments, rest) := by
  rw [readArguments, if_neg hstart.head?_ne]
  simp only [h, hshorter, hafter, dif_pos, Option.bind_eq_bind, Option.bind_some]
  rfl

theorem number?_toString {n : Int32} (h : 0 ≤ n.toInt) : number? (toString n) = some n := by
  have hdigits : (Nat.toDigits 10 n.toInt.toNat).all Char.isDigit = true := by
    rw [List.all_eq_true]
    exact fun c hc => Nat.isDigit_of_mem_toDigits (by decide) (by decide) hc
  rw [number?, toList_toString h, if_pos hdigits, Nat.ofDigitChars_toDigits (by decide) (by decide),
    Int.toNat_of_nonneg h, Int32.ofInt_toInt]

theorem number?_of_isIdentifier {id : String} (h : IsIdentifier id) : number? id = none := by
  obtain ⟨c, cs, hid⟩ := List.exists_cons_of_ne_nil h.isWord.1
  have hc := h.head
  rw [hid] at hc
  have hdigit : c.isDigit = false := by simpa using hc
  rw [number?, hid, if_neg (by simp [hdigit])]

theorem named?_word {word : String} (hnull : word ≠ "null") (htrue : word ≠ "true") :
    named? [word] = match number? word with
      | some n => some (.number n)
      | none => if word ∈ reservedWords then none else some (.name word) := by
  rw [named?]
  · exact hnull
  · exact htrue

theorem named?_number {n : Int32} (h : 0 ≤ n.toInt) : named? [toString n] = some (.number n) := by
  have hnumber := number?_toString h
  have hne : ∀ word, number? word = none → toString n ≠ word := by
    rintro word hnone rfl
    cases hnone.symm.trans hnumber
  rw [named?_word (hne "null" (by decide)) (hne "true" (by decide)), hnumber]

theorem tokens_eq_pathTokens (h : e.path ≠ []) : e.tokens = pathTokens e.path := by
  cases e with
  | name _ | ofThis _ | ofThat _ => rfl
  | _ => exact absurd rfl h

theorem named?_path (h : e.Readable) (hpath : e.path ≠ []) : named? e.path = some e := by
  cases e with
  | name id =>
    have hid : IsIdentifier id := h
    have hnull : id ≠ "null" := fun heq => hid.not_reserved (by rw [heq]; decide)
    have htrue : id ≠ "true" := fun heq => hid.not_reserved (by rw [heq]; decide)
    rw [Expr.path, named?_word hnull htrue, number?_of_isIdentifier hid]
    exact if_neg hid.not_reserved
  | ofThis _ | ofThat _ => rfl
  | _ => exact absurd rfl hpath

theorem call?_concat {owner : List String} (h : owner ≠ []) (method : String)
    (arguments : List Expr) :
    call? (owner ++ [method]) arguments = memberCall? owner method arguments := by
  rw [call?, List.dropLast_concat, List.getLast?_concat]
  split
  · exact absurd rfl h
  · rfl

/-! ## Expressions -/

section Calls

variable {a b : Expr}

/-- A call with one argument. -/
theorem readUnary_call (hne : path ≠ []) (ha : a.Readable) (hreads : Reads a)
    (h : call? path [a] = some e) :
    readUnary (callTokens path [a.tokens] ++ rest) = some (e, rest) := by
  have htokens : callTokens path [a.tokens] ++ rest
      = pathTokens path ++ .mark '(' :: (a.tokens ++ .mark ')' :: rest) := by
    simp [callTokens]
  have hargument : readExpr (a.tokens ++ .mark ')' :: rest) = some (a, .mark ')' :: rest) :=
    hreads.readExpr (ends_mark ')' rfl 0 rest)
  rw [htokens]
  exact readUnary_of_call hne (readArguments_last ((startsWell_tokens ha).append _) hargument) h

/-- A call with two arguments. -/
theorem readUnary_call₂ (hne : path ≠ []) (ha : a.Readable) (hareads : Reads a) (hb : b.Readable)
    (hbreads : Reads b) (h : call? path [a, b] = some e) :
    readUnary (callTokens path [a.tokens, b.tokens] ++ rest) = some (e, rest) := by
  have htokens : callTokens path [a.tokens, b.tokens] ++ rest = pathTokens path
      ++ .mark '(' :: (a.tokens ++ .mark ',' :: (b.tokens ++ .mark ')' :: rest)) := by
    simp [callTokens, List.intercalate_cons_cons]
  have hsecond : readExpr (b.tokens ++ .mark ')' :: rest) = some (b, .mark ')' :: rest) :=
    hbreads.readExpr (ends_mark ')' rfl 0 rest)
  have hfirst : readExpr (a.tokens ++ .mark ',' :: (b.tokens ++ .mark ')' :: rest))
      = some (a, .mark ',' :: (b.tokens ++ .mark ')' :: rest)) :=
    hareads.readExpr (ends_mark ',' rfl 0 _)
  have hshorter : (b.tokens ++ .mark ')' :: rest).length
      < (a.tokens ++ .mark ',' :: (b.tokens ++ .mark ')' :: rest)).length :=
    Nat.lt_of_succ_lt (length_lt_tokens a (.mark ',' :: _))
  have harguments := readArguments_cons ((startsWell_tokens ha).append _) hfirst hshorter
    (readArguments_last ((startsWell_tokens hb).append _) hsecond)
  rw [htokens]
  exact readUnary_of_call hne harguments h

end Calls

theorem level_of_path (h : e.path ≠ []) : e.level = 7 := by
  cases e with
  | name _ | ofThis _ | ofThat _ => rfl
  | _ => exact absurd rfl h

/-- Names and fields. -/
theorem reads_of_path (h : e.Readable) (hpath : e.path ≠ []) : Reads e := by
  refine reads_of_readUnary (level_of_path hpath) fun rest hends => ?_
  rw [tokens_eq_pathTokens hpath]
  exact readUnary_of_named e.path hpath (named?_path h hpath) hends

/-- Calls of methods of an object. -/
theorem readUnary_method {whole : Expr} (method : String) (arguments : List Expr)
    (inside : List Token) (h : e.Readable) (hpath : e.path ≠ [])
    (htokens : whole.tokens = e.tokens ++ [.mark '.', .word method, .mark '('] ++ inside)
    (harguments : readArguments (inside ++ rest) = some (arguments, rest))
    (hcall : ∀ owner, named? owner = some e → memberCall? owner method arguments = some whole) :
    readUnary (whole.tokens ++ rest) = some (whole, rest) := by
  have hwhole : whole.tokens ++ rest
      = pathTokens (e.path ++ [method]) ++ .mark '(' :: (inside ++ rest) := by
    rw [htokens, tokens_eq_pathTokens hpath, pathTokens_concat hpath]
    simp
  rw [hwhole]
  refine readUnary_of_call (by simp) harguments ?_
  rw [call?_concat hpath]
  exact hcall _ (named?_path h hpath)

section Forms

variable {a b : Expr}

theorem reads_upperHalf (h : e.Readable) (hlevel : 4 ≤ e.level) (he : Reads e) :
    Reads (.upperHalf e) := by
  refine reads_of_readUnary rfl fun rest _ => ?_
  have hends : Ends 5 (.shift :: .word "32" :: .mark ')' :: rest) := ends_cons (by decide)
  have hshift : readLevel 4 (e.tokens ++ .shift :: .word "32" :: .mark ')' :: rest)
      = some (.upperHalf e, .mark ')' :: rest) := by
    rw [he 4 _ hlevel hends, readMore, if_pos rfl, readMore_of_ends (ends_mark ')' rfl 4 rest)]
  have hshorter : (Token.mark ')' :: rest).length
      < (e.tokens ++ .shift :: .word "32" :: .mark ')' :: rest).length := by
    simp only [List.length_append, List.length_cons]
    omega
  have hlowest := readLevel_of_le (by decide) (by decide) hshift hshorter (ends_mark ')' rfl 1 rest)
  have hread := readExpr_of_readLevel hlowest (ends_mark ')' rfl 0 rest)
  have htokens : (Expr.upperHalf e).tokens ++ rest
      = .mark '(' :: (e.tokens ++ .shift :: .word "32" :: .mark ')' :: rest) := by
    simp [Expr.tokens]
  rw [htokens]
  exact readUnary_of_readExpr ((startsWell_tokens h).append _) hread

theorem reads_toInt (h : e.Readable) (he : Reads e) : Reads (.toInt e) := by
  refine reads_of_readUnary rfl fun rest _ => ?_
  have hread : readExpr (e.tokens ++ .mark ')' :: rest) = some (e, .mark ')' :: rest) :=
    he.readExpr (ends_mark ')' rfl 0 rest)
  have htokens : (Expr.toInt e).tokens ++ rest = .mark '(' :: .word "int" :: .mark ')' ::
      .mark '(' :: (e.tokens ++ .mark ')' :: rest) := by
    simp [Expr.tokens]
  rw [htokens, readUnary, readUnary_of_readExpr ((startsWell_tokens h).append _) hread]
  rfl

theorem reads_choice {condition yes no : Expr} (h : condition.Readable)
    (hcondition : Reads condition) (hyes : Reads yes) (hno : Reads no) :
    Reads (.choice condition yes no) := by
  refine reads_of_readUnary rfl fun rest _ => ?_
  -- what is left where the condition and where the first choice have been read
  set other := no.tokens ++ .mark ')' :: rest with hother
  set choices := yes.tokens ++ .mark ':' :: other with hchoices
  have hreadNo : readExpr other = some (no, .mark ')' :: rest) :=
    hno.readExpr (ends_mark ')' rfl 0 rest)
  have hreadYes : readExpr choices = some (yes, .mark ':' :: other) :=
    hyes.readExpr (ends_mark ':' rfl 0 other)
  have hends : Ends 1 (.mark '?' :: choices) := ends_cons (by decide)
  have hreadCondition := hcondition.readLevel (level_le condition).1 hends
  have hlate : choices.length < (condition.tokens ++ .mark '?' :: choices).length :=
    Nat.lt_of_succ_lt (length_lt_tokens condition (.mark '?' :: choices))
  have hlater : other.length < (condition.tokens ++ .mark '?' :: choices).length :=
    (Nat.lt_of_succ_lt (length_lt_tokens yes (.mark ':' :: other))).trans hlate
  have hread : readExpr (condition.tokens ++ .mark '?' :: choices)
      = some (.choice condition yes no, .mark ')' :: rest) := by
    rw [readExpr, hreadCondition]
    simp only [hlate, hlater, hreadYes, hreadNo, dif_pos, Option.bind_eq_bind, Option.bind_some]
    rfl
  have htokens : (Expr.choice condition yes no).tokens ++ rest
      = .mark '(' :: (condition.tokens ++ .mark '?' :: choices) := by
    simp [Expr.tokens, hother, hchoices]
  rw [htokens]
  exact readUnary_of_readExpr ((startsWell_tokens h).append _) hread

theorem reads_objectHash (h : e.Readable) (hpath : e.path ≠ []) : Reads (.objectHash e) := by
  refine reads_of_readUnary rfl fun rest _ => ?_
  refine readUnary_method "hashCode" [] [.mark ')'] h hpath ?_ (readArguments_nil rest)
    fun owner howner => ?_
  · simp [Expr.tokens]
  · rw [memberCall?, howner]
    rfl

theorem reads_objectEquals (ha : a.Readable) (hpath : a.path ≠ []) (hb : b.Readable)
    (hreads : Reads b) : Reads (.objectEquals a b) := by
  refine reads_of_readUnary rfl fun rest _ => ?_
  have hargument : readExpr (b.tokens ++ .mark ')' :: rest) = some (b, .mark ')' :: rest) :=
    hreads.readExpr (ends_mark ')' rfl 0 rest)
  refine readUnary_method "equals" [b] (b.tokens ++ [.mark ')']) ha hpath ?_ ?_
    fun owner howner => ?_
  · simp [Expr.tokens]
  · rw [List.append_assoc]
    exact readArguments_last ((startsWell_tokens hb).append _) hargument
  · rw [memberCall?, howner]
    rfl

end Forms

/-- **Every expression that can be read again is read again.** -/
theorem reads_of_readable (h : e.Readable) : Reads e := by
  induction e with
  | name id | ofThis field | ofThat field => exact reads_of_path h (List.cons_ne_nil _ _)
  | null =>
    exact reads_of_readUnary rfl fun rest =>
      readUnary_of_named ["null"] (List.cons_ne_nil _ _) rfl
  | truth =>
    exact reads_of_readUnary rfl fun rest =>
      readUnary_of_named ["true"] (List.cons_ne_nil _ _) rfl
  | number n =>
    exact reads_of_readUnary rfl fun rest =>
      readUnary_of_named [toString n] (List.cons_ne_nil _ _) (named?_number h)
  | product a b iha ihb | sum a b iha ihb | exclusiveOr a b iha ihb | same a b iha ihb
  | both a b iha ihb =>
    exact reads_operator rfl rfl rfl (iha h.1.1) h.1.2 (ihb h.2.1) h.2.2
  | upperHalf e ih => exact reads_upperHalf h.1 h.2 (ih h.1)
  | toInt e ih => exact reads_toInt h (ih h)
  | choice condition yes no ihcondition ihyes ihno =>
    exact reads_choice h.1 (ihcondition h.1) (ihyes h.2.1) (ihno h.2.2)
  | objectHash e ih => exact reads_objectHash h.1 h.2
  | objectEquals a b iha ihb => exact reads_objectEquals h.1.1 h.1.2 h.2 (ihb h.2)
  | floatBits owner e ih =>
    refine reads_of_readUnary rfl fun rest _ => readUnary_call (by simp) h.2 (ih h.2) ?_
    rw [call?_concat (dottedWords_ne_nil owner), memberCall?, intercalate_dottedWords]
  | doubleBits owner e ih =>
    refine reads_of_readUnary rfl fun rest _ => readUnary_call (by simp) h.2 (ih h.2) ?_
    rw [call?_concat (dottedWords_ne_nil owner), memberCall?, intercalate_dottedWords]
  | arrayHash owner deep e ih =>
    refine reads_of_readUnary rfl fun rest _ => readUnary_call (by simp) h.2 (ih h.2) ?_
    rw [call?_concat (dottedWords_ne_nil owner)]
    cases deep <;> simp [memberCall?, intercalate_dottedWords]
  | arrayEquals owner deep a b iha ihb =>
    refine reads_of_readUnary rfl fun rest _ =>
      readUnary_call₂ (by simp) h.2.1 (iha h.2.1) h.2.2 (ihb h.2.2) ?_
    rw [call?_concat (dottedWords_ne_nil owner)]
    cases deep <;> simp [memberCall?, intercalate_dottedWords]
  | nullSafeEquals a b iha ihb =>
    exact reads_of_readUnary rfl fun rest _ =>
      readUnary_call₂ (List.cons_ne_nil _ _) h.1 (iha h.1) h.2 (ihb h.2) rfl

end ValueClass.Java
