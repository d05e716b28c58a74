import Mathlib.Data.List.Basic
import ValueClass.Java.Statement
import ValueClass.Proofs.Pieces

/-!
# Tokens of method bodies

The text of a method falls into words and marks. A word goes on as long as there are characters of
words, and a mark of several characters is not taken for several marks.

* `tokensFrom`: the tokens of a text, after the beginning of a word.
* `HasTokens`: the tokens of a piece of text, whatever comes after it. `EndsIn` asks for less: that
  a word at the end of the piece does not go on.
* `Expr.tokens`, `Statement.tokens`: the tokens of expressions and statements.
* `Expr.Readable`, `Statement.Readable`: those that can be read again, for their names are
  identifiers, and brackets stand where the strength of the operators asks for them.
* `endsIn_text`, `hasTokens_statementText`: **their texts have these tokens.**
-/

namespace ValueClass.Java

open Text

/-- A token of a method body. -/
inductive Token where
  /-- An identifier, a keyword or a number. -/
  | word (text : String)
  | mark (c : Char)
  /-- The mark `==`. -/
  | same
  /-- The mark `>>>`. -/
  | shift
  /-- The mark `&&`. -/
  | both
  deriving DecidableEq, Repr

/-- Whether a character can be in a word: a letter, a digit, an underscore, a dollar sign, or
anything beyond ASCII. -/
def isWordChar (c : Char) : Bool :=
  c.isAlphanum || c == '_' || c == '$' || decide (0x80 ≤ c.toNat)

/-- The token of the word that has been read, if one has. -/
def wordToken (word : List Char) : List Token :=
  if word = [] then [] else [.word (String.ofList word)]

/-- **The tokens of a text**, after the beginning of a word. -/
def tokensFrom (word : List Char) : List Char → List Token
  | [] => wordToken word
  | '=' :: '=' :: rest => wordToken word ++ .same :: tokensFrom [] rest
  | '&' :: '&' :: rest => wordToken word ++ .both :: tokensFrom [] rest
  | '>' :: '>' :: '>' :: rest => wordToken word ++ .shift :: tokensFrom [] rest
  | c :: rest =>
    if isWordChar c then tokensFrom (word ++ [c]) rest
    else if c = ' ' ∨ c = '\n' then wordToken word ++ tokensFrom [] rest
    else wordToken word ++ .mark c :: tokensFrom [] rest

/-! ## Pieces of text -/

/-- No word goes on with the text. -/
def Breaks (cs : List Char) : Prop :=
  ∀ c ∈ cs.head?, isWordChar c = false

/-- The tokens of a piece of text, whatever comes after it. -/
def HasTokens (text : String) (tokens : List Token) : Prop :=
  ∀ rest, tokensFrom [] (text.toList ++ rest) = tokens ++ tokensFrom [] rest

/-- The tokens of a piece of text after which no word goes on. -/
def EndsIn (text : String) (tokens : List Token) : Prop :=
  ∀ rest, Breaks rest → tokensFrom [] (text.toList ++ rest) = tokens ++ tokensFrom [] rest

/-- A piece of text between two others. A word in front of it does not go on. -/
structure Between (text : String) (tokens : List Token) : Prop where
  starts : text.toList.head?.map isWordChar = some false
  tokens : HasTokens text tokens

section Pieces

variable {a b glue : String} {as bs tokens : List Token}

theorem Between.breaks (h : Between a as) (rest : List Char) : Breaks (a.toList ++ rest) := by
  obtain ⟨c, hc, hbreaks⟩ := Option.map_eq_some_iff.1 h.starts
  intro d hd
  rw [List.head?_append, hc] at hd
  rwa [← Option.some.inj hd]

theorem HasTokens.endsIn (h : HasTokens a as) : EndsIn a as :=
  fun rest _ => h rest

theorem HasTokens.append (ha : HasTokens a as) (hb : HasTokens b bs) :
    HasTokens (a ++ b) (as ++ bs) := by
  intro rest
  rw [String.toList_append, List.append_assoc, ha, hb, List.append_assoc]

theorem HasTokens.before (ha : HasTokens a as) (hb : EndsIn b bs) : EndsIn (a ++ b) (as ++ bs) := by
  intro rest hrest
  rw [String.toList_append, List.append_assoc, ha, hb rest hrest, List.append_assoc]

theorem EndsIn.closed (ha : EndsIn a as) (hglue : Between glue tokens) :
    HasTokens (a ++ glue) (as ++ tokens) := by
  intro rest
  rw [String.toList_append, List.append_assoc, ha _ (hglue.breaks rest), hglue.tokens,
    List.append_assoc]

/-- Two pieces with something between them. -/
theorem EndsIn.between (ha : EndsIn a as) (hglue : Between glue tokens) (hb : EndsIn b bs) :
    EndsIn (a ++ glue ++ b) (as ++ tokens ++ bs) :=
  (ha.closed hglue).before hb

theorem hasTokens_join {α : Type} {items : List α} {text : α → String} {tokens : α → List Token}
    (h : ∀ item ∈ items, HasTokens (text item) (tokens item)) :
    HasTokens (String.join (items.map text)) (items.flatMap tokens) := by
  induction items with
  | nil => exact fun rest => rfl
  | cons item items ih =>
    obtain ⟨hitem, hitems⟩ := List.forall_mem_cons.1 h
    rw [List.map_cons, String.join_cons, List.flatMap_cons]
    exact hitem.append (ih hitems)

end Pieces

/-! ## Words -/

/-- A text that is one word. -/
def IsWord (word : List Char) : Prop :=
  word ≠ [] ∧ word.all isWordChar = true

instance (word : List Char) : Decidable (IsWord word) :=
  inferInstanceAs (Decidable (_ ∧ _))

/-- A character of words goes on with the word before it. -/
theorem tokensFrom_cons_of_isWordChar {c : Char} (h : isWordChar c = true) (word rest : List Char) :
    tokensFrom word (c :: rest) = tokensFrom (word ++ [c]) rest := by
  rw [tokensFrom, if_pos h]
  · rintro _ rfl
    exact absurd h (by decide)
  · rintro _ rfl
    exact absurd h (by decide)
  · rintro _ rfl
    exact absurd h (by decide)

theorem tokensFrom_of_breaks {word rest : List Char} (h : Breaks rest) :
    tokensFrom word rest = wordToken word ++ tokensFrom [] rest := by
  fun_cases tokensFrom word rest with
  | case1 => simp [tokensFrom, wordToken]
  | case2 | case3 | case4 => rfl
  | case5 c rest _ _ _ hc => exact absurd (h c rfl) (by simp [hc])
  | case6 c rest hsame hboth hshift hc hblank =>
    rw [tokensFrom, if_neg hc, if_pos hblank]
    · rfl
    all_goals assumption
  | case7 c rest hsame hboth hshift hc hblank =>
    rw [tokensFrom, if_neg hc, if_neg hblank]
    · rfl
    all_goals assumption

theorem endsIn_word {word : String} (h : IsWord word.toList) : EndsIn word [.word word] := by
  have hword : ∀ (more before : List Char), (∀ c ∈ more, isWordChar c = true) → ∀ rest,
      Breaks rest → tokensFrom before (more ++ rest)
        = wordToken (before ++ more) ++ tokensFrom [] rest := by
    intro more
    induction more with
    | nil =>
      intro before _ rest hrest
      rw [List.nil_append, List.append_nil, tokensFrom_of_breaks hrest]
    | cons c more ih =>
      intro before hmore rest hrest
      obtain ⟨hc, hmore⟩ := List.forall_mem_cons.1 hmore
      rw [List.cons_append, tokensFrom_cons_of_isWordChar hc, ih _ hmore rest hrest,
        List.append_assoc, List.singleton_append]
  intro rest hrest
  rw [hword _ [] (List.all_eq_true.1 h.2) rest hrest, List.nil_append, wordToken, if_neg h.1,
    String.ofList_toList]

/-- The words that dots part in a text. -/
def dottedWords (text : String) : List String :=
  (List.splitOn '.' text.toList).map String.ofList

/-- The tokens of words with a dot in front of each. -/
def dottedTokens (words : List String) : List Token :=
  words.flatMap fun word => [.mark '.', .word word]

/-- The tokens of words with dots between them. -/
def pathTokens : List String → List Token
  | [] => []
  | first :: rest => .word first :: dottedTokens rest

theorem pathTokens_concat {path : List String} (h : path ≠ []) (last : String) :
    pathTokens (path ++ [last]) = pathTokens path ++ [.mark '.', .word last] := by
  obtain ⟨first, rest, rfl⟩ := List.exists_cons_of_ne_nil h
  simp [pathTokens, dottedTokens]

theorem dottedWords_ne_nil (text : String) : dottedWords text ≠ [] := by
  obtain ⟨first, rest, hpieces⟩ := exists_splitOn_eq '.' text.toList
  simp [dottedWords, hpieces]

theorem between_dot : Between "." [.mark '.'] :=
  ⟨rfl, fun _ => rfl⟩

theorem endsIn_path {path : List String} (hne : path ≠ [])
    (h : ∀ word ∈ path, IsWord word.toList) :
    EndsIn (String.intercalate "." path) (pathTokens path) := by
  induction path with
  | nil => exact absurd rfl hne
  | cons first rest ih =>
    obtain ⟨hfirst, hrest⟩ := List.forall_mem_cons.1 h
    cases rest with
    | nil => simpa [pathTokens, dottedTokens] using endsIn_word hfirst
    | cons next rest =>
      have htokens : pathTokens (first :: next :: rest)
          = [.word first] ++ [.mark '.'] ++ pathTokens (next :: rest) := by
        simp [pathTokens, dottedTokens]
      rw [htokens, String.intercalate_cons_of_ne_nil (List.cons_ne_nil _ _)]
      exact (endsIn_word hfirst).between between_dot (ih (List.cons_ne_nil _ _) hrest)

theorem intercalate_dottedWords (text : String) :
    String.intercalate "." (dottedWords text) = text := by
  rw [← String.toList_inj, String.toList_intercalate, dottedWords, List.map_map]
  have hpieces : (List.splitOn '.' text.toList).map (String.toList ∘ String.ofList)
      = List.splitOn '.' text.toList := by
    simp [Function.comp_def]
  rw [hpieces]
  exact List.intercalate_splitOn '.'

/-! ## Expressions and statements -/

/-- The words that are no names where an expression or a statement is read. -/
def reservedWords : List String :=
  ["this", "null", "true", "int", "long", "return", "if", "else"]

/-- **A name that can be read**: a word that is neither a number nor reserved. -/
structure IsIdentifier (id : String) : Prop where
  isWord : IsWord id.toList
  head : id.toList.head?.map Char.isDigit ≠ some true
  not_reserved : id ∉ reservedWords

instance (id : String) : Decidable (IsIdentifier id) :=
  decidable_of_iff
    (IsWord id.toList ∧ id.toList.head?.map Char.isDigit ≠ some true ∧ id ∉ reservedWords)
    ⟨fun ⟨h1, h2, h3⟩ => ⟨h1, h2, h3⟩, fun ⟨h1, h2, h3⟩ => ⟨h1, h2, h3⟩⟩

/-- A name with dots that can be read. -/
def IsDotted (text : String) : Prop :=
  ∀ word ∈ dottedWords text, IsIdentifier word

instance (text : String) : Decidable (IsDotted text) :=
  inferInstanceAs (Decidable (∀ word ∈ dottedWords text, _))

/-- The tokens of a call of a method with arguments. -/
def callTokens (path : List String) (arguments : List (List Token)) : List Token :=
  pathTokens path ++ .mark '(' :: List.intercalate [.mark ','] arguments ++ [.mark ')']

namespace Expr

/-- The words of a name or a field. -/
def path : Expr → List String
  | .name id => [id]
  | .ofThis field => ["this", field]
  | .ofThat field => ["that", field]
  | _ => []

/-- **The tokens of an expression.** -/
def tokens : Expr → List Token
  | .name id => pathTokens [id]
  | .ofThis field => pathTokens ["this", field]
  | .ofThat field => pathTokens ["that", field]
  | .null => [.word "null"]
  | .number n => [.word (toString n)]
  | .product a b => a.tokens ++ [.mark '*'] ++ b.tokens
  | .sum a b => a.tokens ++ [.mark '+'] ++ b.tokens
  | .exclusiveOr a b => a.tokens ++ [.mark '^'] ++ b.tokens
  | .upperHalf e => [.mark '('] ++ e.tokens ++ [.shift, .word "32", .mark ')']
  | .toInt e => [.mark '(', .word "int", .mark ')', .mark '('] ++ e.tokens ++ [.mark ')']
  | .same a b => a.tokens ++ [.same] ++ b.tokens
  | .choice condition yes no =>
    [.mark '('] ++ condition.tokens ++ [.mark '?'] ++ yes.tokens ++ [.mark ':'] ++ no.tokens
      ++ [.mark ')']
  | .objectHash e => e.tokens ++ [.mark '.', .word "hashCode", .mark '(', .mark ')']
  | .floatBits owner e => callTokens (dottedWords owner ++ ["floatToIntBits"]) [e.tokens]
  | .doubleBits owner e => callTokens (dottedWords owner ++ ["doubleToLongBits"]) [e.tokens]
  | .arrayHash owner deep e =>
    callTokens (dottedWords owner ++ [if deep then "deepHashCode" else "hashCode"]) [e.tokens]
  | .arrayEquals owner deep a b =>
    callTokens (dottedWords owner ++ [if deep then "deepEquals" else "equals"])
      [a.tokens, b.tokens]
  | .nullSafeEquals a b => callTokens ["equals"] [a.tokens, b.tokens]
  | .objectEquals a b =>
    a.tokens ++ [.mark '.', .word "equals", .mark '('] ++ b.tokens ++ [.mark ')']
  | .truth => [.word "true"]
  | .both a b => a.tokens ++ [.both] ++ b.tokens

/-- How strongly the parts of an expression belong together. What is in brackets, a name and a call
belong together most, the sides of `&&` least. -/
def level : Expr → Nat
  | .both _ _ => 1
  | .exclusiveOr _ _ => 2
  | .same _ _ => 3
  | .sum _ _ => 5
  | .product _ _ => 6
  | _ => 7

/-- **An expression that can be read again from its text.** Its names are identifiers, its numbers
are not negative, and its parts belong together as strongly as their places ask for. -/
def Readable : Expr → Prop
  | .name id | .ofThis id | .ofThat id => IsIdentifier id
  | .null | .truth => True
  | .number n => 0 ≤ n.toInt
  | .product a b => (a.Readable ∧ 6 ≤ a.level) ∧ b.Readable ∧ 7 ≤ b.level
  | .sum a b => (a.Readable ∧ 5 ≤ a.level) ∧ b.Readable ∧ 6 ≤ b.level
  | .same a b => (a.Readable ∧ 3 ≤ a.level) ∧ b.Readable ∧ 4 ≤ b.level
  | .exclusiveOr a b => (a.Readable ∧ 2 ≤ a.level) ∧ b.Readable ∧ 3 ≤ b.level
  | .both a b => (a.Readable ∧ 1 ≤ a.level) ∧ b.Readable ∧ 2 ≤ b.level
  | .upperHalf e => e.Readable ∧ 4 ≤ e.level
  | .toInt e => e.Readable
  | .choice condition yes no => condition.Readable ∧ yes.Readable ∧ no.Readable
  | .objectHash e => e.Readable ∧ e.path ≠ []
  | .floatBits owner e | .doubleBits owner e | .arrayHash owner _ e => IsDotted owner ∧ e.Readable
  | .arrayEquals owner _ a b => IsDotted owner ∧ a.Readable ∧ b.Readable
  | .nullSafeEquals a b => a.Readable ∧ b.Readable
  | .objectEquals a b => (a.Readable ∧ a.path ≠ []) ∧ b.Readable

end Expr

/-- A number that is not negative is written with its digits. -/
theorem toList_toString {n : Int32} (h : 0 ≤ n.toInt) :
    (toString n).toList = Nat.toDigits 10 n.toInt.toNat := by
  obtain ⟨k, hk⟩ := Int.eq_ofNat_of_zero_le h
  have htext : toString n = toString n.toInt := rfl
  rw [htext, hk, Int.toNat_natCast]
  have hrepr : toString (k : Int) = Nat.repr k := rfl
  rw [hrepr, Nat.repr, String.toList_ofList]

theorem isWord_toString {n : Int32} (h : 0 ≤ n.toInt) : IsWord (toString n).toList := by
  rw [toList_toString h]
  refine ⟨Nat.toDigits_ne_nil, List.all_eq_true.2 fun c hc => ?_⟩
  have hdigit := Nat.isDigit_of_mem_toDigits (by decide) (by decide) hc
  simp [isWordChar, Char.isAlphanum, hdigit]

/-- The beginning of a call of a method of a class. -/
theorem hasTokens_call {owner method text : String} (h : IsDotted owner)
    (hmethod : Between text [.mark '.', .word method, .mark '(']) :
    HasTokens (owner ++ text) (pathTokens (dottedWords owner ++ [method]) ++ [.mark '(']) := by
  have howner := endsIn_path (dottedWords_ne_nil owner) fun word hword => (h word hword).isWord
  rw [intercalate_dottedWords] at howner
  rw [pathTokens_concat (dottedWords_ne_nil owner), List.append_assoc]
  exact howner.closed hmethod

theorem between_closing : Between ")" [.mark ')'] :=
  ⟨rfl, fun _ => rfl⟩

theorem between_comma : Between ", " [.mark ','] :=
  ⟨rfl, fun _ => rfl⟩

/-- A call with one argument. -/
theorem endsIn_call {start : String} {path : List String} {e : Expr}
    (hstart : HasTokens start (pathTokens path ++ [.mark '('])) (he : EndsIn e.text e.tokens) :
    EndsIn (start ++ e.text ++ ")") (callTokens path [e.tokens]) := by
  have hcall := ((hstart.before he).closed between_closing).endsIn
  simpa [callTokens] using hcall

/-- A call with two arguments. -/
theorem endsIn_call₂ {start : String} {path : List String} {a b : Expr}
    (hstart : HasTokens start (pathTokens path ++ [.mark '('])) (ha : EndsIn a.text a.tokens)
    (hb : EndsIn b.text b.tokens) :
    EndsIn (start ++ a.text ++ ", " ++ b.text ++ ")")
      (callTokens path [a.tokens, b.tokens]) := by
  have hcall := (((hstart.before ha).between between_comma hb).closed between_closing).endsIn
  simpa [callTokens, List.intercalate_cons_cons] using hcall

/-- **The text of an expression has its tokens.** -/
theorem endsIn_text {e : Expr} (h : e.Readable) : EndsIn e.text e.tokens := by
  have hopening : HasTokens "(" [.mark '('] := fun _ => rfl
  induction e with
  | name id => exact endsIn_word h.isWord
  | ofThis field =>
    have hthis : HasTokens "this." [.word "this", .mark '.'] := fun _ => rfl
    exact hthis.before (endsIn_word h.isWord)
  | ofThat field =>
    have hthat : HasTokens "that." [.word "that", .mark '.'] := fun _ => rfl
    exact hthat.before (endsIn_word h.isWord)
  | null => exact endsIn_word (by decide)
  | truth => exact endsIn_word (by decide)
  | number n => exact endsIn_word (isWord_toString h)
  | product a b iha ihb =>
    have htimes : Between " * " [.mark '*'] := ⟨rfl, fun _ => rfl⟩
    exact (iha h.1.1).between htimes (ihb h.2.1)
  | sum a b iha ihb =>
    have hplus : Between " + " [.mark '+'] := ⟨rfl, fun _ => rfl⟩
    exact (iha h.1.1).between hplus (ihb h.2.1)
  | exclusiveOr a b iha ihb =>
    have hcaret : Between " ^ " [.mark '^'] := ⟨rfl, fun _ => rfl⟩
    exact (iha h.1.1).between hcaret (ihb h.2.1)
  | same a b iha ihb =>
    have hsame : Between " == " [.same] := ⟨rfl, fun _ => rfl⟩
    exact (iha h.1.1).between hsame (ihb h.2.1)
  | both a b iha ihb =>
    have hboth : Between "\n            && " [.both] := ⟨rfl, fun _ => rfl⟩
    exact (iha h.1.1).between hboth (ihb h.2.1)
  | upperHalf e ih =>
    have hshift : Between " >>> 32)" [.shift, .word "32", .mark ')'] := ⟨rfl, fun _ => rfl⟩
    exact ((hopening.before (ih h.1)).closed hshift).endsIn
  | toInt e ih =>
    have hcast : HasTokens "(int) (" [.mark '(', .word "int", .mark ')', .mark '('] := fun _ => rfl
    exact ((hcast.before (ih h)).closed between_closing).endsIn
  | choice condition yes no ihcondition ihyes ihno =>
    have hthen : Between " ? " [.mark '?'] := ⟨rfl, fun _ => rfl⟩
    have helse : Between " : " [.mark ':'] := ⟨rfl, fun _ => rfl⟩
    have hcondition := hopening.before (ihcondition h.1)
    exact (((hcondition.between hthen (ihyes h.2.1)).between helse (ihno h.2.2)).closed
      between_closing).endsIn
  | objectHash e ih =>
    have hmethod : Between ".hashCode()" [.mark '.', .word "hashCode", .mark '(', .mark ')'] :=
      ⟨rfl, fun _ => rfl⟩
    exact ((ih h.1).closed hmethod).endsIn
  | objectEquals a b iha ihb =>
    have hmethod : Between ".equals(" [.mark '.', .word "equals", .mark '('] :=
      ⟨rfl, fun _ => rfl⟩
    exact (((iha h.1.1).between hmethod (ihb h.2)).closed between_closing).endsIn
  | floatBits owner e ih =>
    have hmethod : Between ".floatToIntBits(" [.mark '.', .word "floatToIntBits", .mark '('] :=
      ⟨rfl, fun _ => rfl⟩
    exact endsIn_call (hasTokens_call h.1 hmethod) (ih h.2)
  | doubleBits owner e ih =>
    have hmethod : Between ".doubleToLongBits(" [.mark '.', .word "doubleToLongBits", .mark '('] :=
      ⟨rfl, fun _ => rfl⟩
    exact endsIn_call (hasTokens_call h.1 hmethod) (ih h.2)
  | arrayHash owner deep e ih =>
    have hmethod : Between (if deep then ".deepHashCode(" else ".hashCode(")
        [.mark '.', .word (if deep then "deepHashCode" else "hashCode"), .mark '('] := by
      cases deep <;> exact ⟨rfl, fun _ => rfl⟩
    exact endsIn_call (hasTokens_call h.1 hmethod) (ih h.2)
  | arrayEquals owner deep a b iha ihb =>
    have hmethod : Between (if deep then ".deepEquals(" else ".equals(")
        [.mark '.', .word (if deep then "deepEquals" else "equals"), .mark '('] := by
      cases deep <;> exact ⟨rfl, fun _ => rfl⟩
    exact endsIn_call₂ (hasTokens_call h.1 hmethod) (iha h.2.1) (ihb h.2.2)
  | nullSafeEquals a b iha ihb =>
    have hmethod : HasTokens "equals(" (pathTokens ["equals"] ++ [.mark '(']) := fun _ => rfl
    exact endsIn_call₂ hmethod (iha h.1) (ihb h.2)

namespace Statement

/-- **The tokens of a statement.** -/
def tokens : Statement → List Token
  | .declareInt id e => [.word "int", .word id, .mark '='] ++ e.tokens ++ [.mark ';']
  | .declareLong id e => [.word "long", .word id, .mark '='] ++ e.tokens ++ [.mark ';']
  | .assign id e => [.word id, .mark '='] ++ e.tokens ++ [.mark ';']
  | .returns e => [.word "return"] ++ e.tokens ++ [.mark ';']
  | .returnsEither condition yes no =>
    [.word "if", .mark '('] ++ condition.tokens ++ [.mark ')', .word "return"] ++ yes.tokens
      ++ [.mark ';', .word "else", .word "return"] ++ no.tokens ++ [.mark ';']

/-- A statement that can be read again from its text. -/
def Readable : Statement → Prop
  | .declareInt id e | .declareLong id e | .assign id e => IsIdentifier id ∧ e.Readable
  | .returns e => e.Readable
  | .returnsEither condition yes no => condition.Readable ∧ yes.Readable ∧ no.Readable

end Statement

/-- **The text of a statement has its tokens.** -/
theorem hasTokens_statementText {s : Statement} (h : s.Readable) : HasTokens s.text s.tokens := by
  have hassign : Between " = " [.mark '='] := ⟨rfl, fun _ => rfl⟩
  have hend : Between ";" [.mark ';'] := ⟨rfl, fun _ => rfl⟩
  cases s with
  | declareInt id e =>
    have hint : HasTokens "int " [.word "int"] := fun _ => rfl
    exact ((hint.before (endsIn_word h.1.isWord)).between hassign (endsIn_text h.2)).closed hend
  | declareLong id e =>
    have hlong : HasTokens "long " [.word "long"] := fun _ => rfl
    exact ((hlong.before (endsIn_word h.1.isWord)).between hassign (endsIn_text h.2)).closed hend
  | assign id e => exact ((endsIn_word h.1.isWord).between hassign (endsIn_text h.2)).closed hend
  | returns e =>
    have hreturn : HasTokens "return " [.word "return"] := fun _ => rfl
    exact (hreturn.before (endsIn_text h)).closed hend
  | returnsEither condition yes no =>
    have hif : HasTokens "if (" [.word "if", .mark '('] := fun _ => rfl
    have hthen : Between ")\n        return " [.mark ')', .word "return"] := ⟨rfl, fun _ => rfl⟩
    have helse : Between ";\n    else\n        return "
        [.mark ';', .word "else", .word "return"] := ⟨rfl, fun _ => rfl⟩
    have hcondition := hif.before (endsIn_text h.1)
    exact ((hcondition.between hthen (endsIn_text h.2.1)).between helse
      (endsIn_text h.2.2)).closed hend

end ValueClass.Java
