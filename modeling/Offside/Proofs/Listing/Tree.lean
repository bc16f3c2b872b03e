/-
This file proves that the nested listing of a statement shows all of it but its lines and the
difference between an infinite number and a name.
-/

import Offside.Proofs.Listing.Outline
import Offside.Proofs.Listing.Spelled

namespace Offside

section Words

open Number

/-- A word of a nest is a constant or a name. -/
def Expression.ofWord (word : String) : Expression :=
  if word.toList.head? = some '"' then
    .constant (.string (String.ofList word.toList.tail.dropLast)) 0
  else if word.toList.head?.any Char.isDigit then
    .constant (.number (Float.ofBits (UInt64.ofNat (listedDecimal word.toList).toBits))) 0
  else if word = "nil" then .constant .nil 0
  else if word = "true" then .constant (.bool true) 0
  else if word = "false" then .constant (.bool false) 0
  else .reference ⟨word, 0⟩

/-- The word of a spelled name is read as that name. -/
theorem Expression.ofWord_name {name : Name} (spelled : name.Spelled) :
    ofWord name.text = .reference name.outline := by
  obtain ⟨isWord, differs⟩ := spelled
  have reserved (keyword : Keyword) : name.text ≠ keyword.text :=
    fun same => differs keyword (congrArg String.toList same)
  have notNil : name.text ≠ "nil" := reserved .nil
  have notTrue : name.text ≠ "true" := reserved .true
  have notFalse : name.text ≠ "false" := reserved .false
  cases text : name.text.toList with
  | nil =>
      rw [text] at isWord
      exact isWord.elim
  | cons first rest =>
      rw [text] at isWord
      have unquoted : first ≠ '"' := by
        rintro rfl
        exact absurd isWord.1 (by decide)
      simp [ofWord, text, unquoted, Piece.isDigit_of_isNameStart isWord.1, notNil, notTrue,
        notFalse, Name.outline]

/-- The word of a number is read as that number. -/
theorem Expression.ofWord_number {value : Float} (magnitude : IsMagnitude value) :
    ofWord (listedNumber value) = (Constant.number value).outline := by
  have text := toList_listedNumber magnitude
  by_cases infinite : value.toBits.toNat = infinityBits
  · rw [listedNumber_infinite infinite, Constant.outline, if_pos infinite]
    rfl
  · have finite : value.toBits.toNat < infinityBits :=
      Nat.lt_of_le_of_ne magnitude infinite
    obtain ⟨⟨first, rest, starts, digit⟩, -⟩ := magnitudeText_chars listed finite
    have unquoted : first ≠ '"' := by
      rintro rfl
      exact absurd digit (by decide)
    have read := listedDecimal_magnitudeText listed finite
    rw [← text] at read
    rw [starts] at text
    rw [ofWord, read, text]
    simp [unquoted, digit, Constant.outline, infinite]

/-- The word of a spelled constant is read as that constant. -/
theorem Expression.ofWord_constant {value : Constant} (spelled : value.Spelled) :
    ofWord value.nested = value.outline := by
  match value, spelled with
  | .nil, _ => rfl
  | .bool true, _ => rfl
  | .bool false, _ => rfl
  | .number value, magnitude => exact ofWord_number magnitude
  | .string value, _ =>
      simp [ofWord, Constant.toList_string, Constant.outline]

end Words

section Clearness

open Nest Number

/-- None of the four marks between words is of this sort. -/
def NoMark (sort : Char → Bool) : Prop := [' ', '(', ')', '"'].all (fun c => !sort c) = true

instance (sort : Char → Bool) : Decidable (NoMark sort) := inferInstanceAs (Decidable (_ = true))

/-- A sort without marks holds plain characters only. -/
theorem NoMark.isPlain {sort : Char → Bool} (noMark : NoMark sort) {c : Char}
    (holds : sort c = true) : isPlain c = true := by
  have apart (mark : Char) (member : mark ∈ [' ', '(', ')', '"']) : c ≠ mark := by
    rintro rfl
    have absent := List.all_eq_true.1 noMark c member
    rw [holds] at absent
    exact Bool.false_ne_true absent
  simp [Nest.isPlain, apart ' ', apart '(', apart ')', apart '"']

/-- The signs and the constants that are words can be checked one by one. -/
theorem legible_of_all {text : List Char} (holds : (!text.isEmpty && text.all isPlain) = true) :
    Legible text := by
  rw [Bool.and_eq_true] at holds
  exact .bare (by simpa using holds.1) (List.all_eq_true.1 holds.2)

/-- A spelled name is legible. -/
theorem Name.Spelled.legible {name : Name} (spelled : name.Spelled) : Legible name.text.toList := by
  have noMark : NoMark Piece.isNamePart := by decide
  refine .bare (fun empty => ?_) fun c member => noMark.isPlain (spelled.1.isNamePart c member)
  have isWord := spelled.1
  rw [empty] at isWord
  exact isWord

/-- A spelled constant is legible. -/
theorem Constant.Spelled.legible {value : Constant} (spelled : value.Spelled) :
    Legible value.nested.toList := by
  match value, spelled with
  | .nil, _ => exact legible_of_all (by decide)
  | .bool true, _ => exact legible_of_all (by decide)
  | .bool false, _ => exact legible_of_all (by decide)
  | .string value, free =>
      rw [Constant.toList_string]
      exact .quoted free
  | .number value, magnitude =>
      rw [Constant.nested, toList_listedNumber magnitude]
      by_cases infinite : value.toBits.toNat = infinityBits
      · rw [infinite, magnitudeText, if_pos (Nat.le_refl _)]
        exact legible_of_all (by decide)
      · obtain ⟨⟨first, rest, starts, -⟩, chars⟩ :=
          magnitudeText_chars listed (Nat.lt_of_le_of_ne magnitude infinite)
        have noMark : NoMark fun c => c.isDigit || ['.', 'e', '-'].contains c := by decide
        refine .bare (by simp [starts]) fun c member => noMark.isPlain ?_
        simpa using chars c member

theorem UnaryOperator.legible (operator : UnaryOperator) : Legible operator.sign.toList := by
  cases operator <;> exact legible_of_all (by decide)

theorem BinaryOperator.legible (operator : BinaryOperator) : Legible operator.sign.toList := by
  cases operator <;> exact legible_of_all (by decide)

theorem LogicOperator.legible (operator : LogicOperator) : Legible operator.sign.toList := by
  cases operator <;> exact legible_of_all (by decide)

mutual

/-- A spelled expression has a clear nest. -/
theorem Expression.Spelled.clear : ∀ {expression : Expression},
    expression.Spelled → expression.nest.Clear
  | .constant _ _, spelled => Constant.Spelled.legible spelled
  | .reference _, spelled => Name.Spelled.legible spelled
  | .group inner, spelled =>
    ⟨legible_of_all (by decide), Expression.Spelled.clear spelled, trivial⟩
  | .unary operator operand _, spelled =>
    ⟨operator.legible, Expression.Spelled.clear spelled, trivial⟩
  | .binary operator left right _, spelled =>
    ⟨operator.legible, spelled.1.clear, spelled.2.clear, trivial⟩
  | .logic operator left right _, spelled =>
    ⟨operator.legible, spelled.1.clear, spelled.2.clear, trivial⟩
  | .assign name value, spelled =>
    ⟨legible_of_all (by decide), spelled.1.legible, spelled.2.clear, trivial⟩
  | .call callee arguments _, spelled =>
    ⟨legible_of_all (by decide), spelled.1.clear, spelled.2.clear⟩

/-- Spelled expressions have clear nests. -/
theorem Expression.SpelledAll.clear : ∀ {expressions : List Expression},
    Expression.SpelledAll expressions → ClearAll (Expression.nestAll expressions)
  | [], _ => trivial
  | _ :: _, spelled => ⟨spelled.1.clear, spelled.2.clear⟩

end

theorem clearAll_names {names : List Name} (spelled : ∀ name ∈ names, name.Spelled) :
    ClearAll (names.map fun name => .word name.text) := by
  induction names with
  | nil => trivial
  | cons name rest inductionHypothesis =>
      rw [List.forall_mem_cons] at spelled
      exact ⟨spelled.1.legible, inductionHypothesis spelled.2⟩

theorem clearAll_optional {value : Option Expression} (spelled : ∀ tree ∈ value, tree.Spelled) :
    ClearAll (value.map Expression.nest).toList := by
  cases value with
  | none => trivial
  | some tree => exact ⟨(spelled tree rfl).clear, trivial⟩

mutual

/-- A spelled statement has a clear nest. -/
theorem Statement.Spelled.clear : ∀ {statement : Statement},
    statement.Spelled → statement.nest.Clear
  | .expression _, spelled =>
    ⟨legible_of_all (by decide), Expression.Spelled.clear spelled, trivial⟩
  | .if_ _ _ _, spelled =>
    ⟨legible_of_all (by decide), spelled.1.clear, spelled.2.1.clear, spelled.2.2.clear⟩
  | .while_ _ _, spelled =>
    ⟨legible_of_all (by decide), spelled.1.clear, spelled.2.clear, trivial⟩
  | .func _ _ _, spelled =>
    ⟨legible_of_all (by decide), spelled.1.legible, clearAll_names spelled.2.1, spelled.2.2.clear⟩
  | .let_ _ _, spelled =>
    ⟨legible_of_all (by decide), spelled.1.legible, clearAll_optional spelled.2⟩
  | .return_ _ _, spelled => ⟨legible_of_all (by decide), clearAll_optional spelled⟩
  | .block _, spelled => ⟨legible_of_all (by decide), Statement.SpelledAll.clear spelled⟩

theorem Statement.SpelledFailure.clear : ∀ {failure : Option Statement},
    Statement.SpelledFailure failure → ClearAll (Statement.nestFailure failure)
  | none, _ => trivial
  | some _, spelled => ⟨Statement.Spelled.clear spelled, trivial⟩

/-- Spelled statements have clear nests. -/
theorem Statement.SpelledAll.clear : ∀ {statements : List Statement},
    Statement.SpelledAll statements → ClearAll (Statement.nestAll statements)
  | [], _ => trivial
  | _ :: _, spelled => ⟨spelled.1.clear, spelled.2.clear⟩

end

end Clearness

section Reading

def UnaryOperator.ofSign? (sign : String) : Option UnaryOperator :=
  [not, negate].find? fun operator => operator.sign == sign

def BinaryOperator.ofSign? (sign : String) : Option BinaryOperator :=
  [multiply, divide, add, subtract, less, lessEqual, greater, greaterEqual, equal, notEqual].find?
    fun operator => operator.sign == sign

def LogicOperator.ofSign? (sign : String) : Option LogicOperator :=
  [and, or].find? fun operator => operator.sign == sign

namespace Expression

/-- The sign of a node and the number of its parts tell what the node lists. -/
def ofNode (sign : String) : List Expression → Expression
  | [] => default
  | [operand] =>
    match UnaryOperator.ofSign? sign with
    | some operator => .unary operator operand 0
    | none => if sign = "group" then .group operand else .call operand [] 0
  | [left, right] =>
    match BinaryOperator.ofSign? sign, LogicOperator.ofSign? sign, left with
    | some operator, _, _ => .binary operator left right 0
    | none, some operator, _ => .logic operator left right 0
    | none, none, .reference name => if sign = "=" then .assign name right else .call left [right] 0
    | none, none, _ => .call left [right] 0
  | callee :: arguments => .call callee arguments 0

mutual

def ofNest : Nest → Expression
  | .word written => .ofWord written
  | .list (.word sign :: parts) => .ofNode sign (ofNestAll parts)
  | .list _ => default

def ofNestAll : List Nest → List Expression
  | [] => []
  | part :: rest => ofNest part :: ofNestAll rest

end

/-- A call node is read as a call of its first part. -/
theorem ofNode_call (callee : Expression) (arguments : List Expression) :
    ofNode "call" (callee :: arguments) = .call callee arguments 0 := by
  match arguments with
  | [] => rfl
  | [_] => cases callee <;> rfl
  | _ :: _ :: _ => rfl

mutual

/-- What an expression is listed as gives back its outline. -/
theorem ofNest_nest : ∀ {expression : Expression}, expression.Spelled →
    ofNest expression.nest = expression.outline
  | .constant _ _, spelled => ofWord_constant spelled
  | .reference _, spelled => ofWord_name spelled
  | .group inner, spelled => by
      have inside : ofNest inner.nest = inner.outline := ofNest_nest spelled
      change ofNode "group" [ofNest inner.nest] = _
      rw [inside]
      rfl
  | .unary operator operand _, spelled => by
      have inside : ofNest operand.nest = operand.outline := ofNest_nest spelled
      change ofNode operator.sign [ofNest operand.nest] = _
      rw [inside]
      cases operator <;> rfl
  | .binary operator left right _, spelled => by
      change ofNode operator.sign [ofNest left.nest, ofNest right.nest] = _
      rw [ofNest_nest spelled.1, ofNest_nest spelled.2]
      cases operator <;> rfl
  | .logic operator left right _, spelled => by
      change ofNode operator.sign [ofNest left.nest, ofNest right.nest] = _
      rw [ofNest_nest spelled.1, ofNest_nest spelled.2]
      cases operator <;> rfl
  | .assign name value, spelled => by
      change ofNode "=" [ofWord name.text, ofNest value.nest] = _
      rw [ofWord_name spelled.1, ofNest_nest spelled.2]
      rfl
  | .call callee arguments _, spelled => by
      change ofNode "call" (ofNest callee.nest :: ofNestAll (nestAll arguments)) = _
      rw [ofNest_nest spelled.1, ofNestAll_nestAll spelled.2, ofNode_call]
      rfl

/-- Spelled expressions are read back as their outlines. -/
theorem ofNestAll_nestAll : ∀ {expressions : List Expression}, SpelledAll expressions →
    ofNestAll (nestAll expressions) = outlineAll expressions
  | [], _ => rfl
  | expression :: rest, spelled => by
      rw [nestAll, ofNestAll, ofNest_nest spelled.1, ofNestAll_nestAll spelled.2, outlineAll]

end

end Expression

def Name.ofNest : Nest → Name
  | .word written => ⟨written, 0⟩
  | .list _ => ⟨"", 0⟩

namespace Statement

/-- The parts of a node are statements and expressions, by their places. -/
def ofNode (sign : String) (parts : List Nest) (trees : List Statement) : Statement :=
  match sign, parts, trees with
  | "expr", [value], _ => .expression (.ofNest value)
  | "if", [condition, _], [_, success] => .if_ (.ofNest condition) success none
  | "if", [condition, _, _], [_, success, failure] =>
    .if_ (.ofNest condition) success (some failure)
  | "while", [condition, _], [_, body] => .while_ (.ofNest condition) body
  | "func", .word name :: .list names :: _, _ :: _ :: body =>
    .func ⟨name, 0⟩ (names.map Name.ofNest) body
  | "let", [.word name], _ => .let_ ⟨name, 0⟩ none
  | "let", [.word name, initial], _ => .let_ ⟨name, 0⟩ (some (.ofNest initial))
  | "return", [], _ => .return_ 0 none
  | "return", [value], _ => .return_ 0 (some (.ofNest value))
  | "block", _, statements => .block statements
  | _, _, _ => default

mutual

def ofNest : Nest → Statement
  | .list (.word sign :: parts) => .ofNode sign parts (ofNestAll parts)
  | _ => default

def ofNestAll : List Nest → List Statement
  | [] => []
  | part :: rest => ofNest part :: ofNestAll rest

end

mutual

/-- What a statement is listed as gives back its outline. -/
theorem ofNest_nest : ∀ {statement : Statement}, statement.Spelled →
    ofNest statement.nest = statement.outline
  | .expression value, spelled => by
      have inside : Expression.ofNest value.nest = value.outline := Expression.ofNest_nest spelled
      change Statement.expression (.ofNest value.nest) = _
      rw [inside]
      rfl
  | .if_ condition success none, spelled => by
      change Statement.if_ (.ofNest condition.nest) (ofNest success.nest) none = _
      rw [Expression.ofNest_nest spelled.1, ofNest_nest spelled.2.1]
      rfl
  | .if_ condition success (some failure), spelled => by
      have last : ofNest failure.nest = failure.outline := ofNest_nest spelled.2.2
      change Statement.if_ (.ofNest condition.nest) (ofNest success.nest)
        (some (ofNest failure.nest)) = _
      rw [Expression.ofNest_nest spelled.1, ofNest_nest spelled.2.1, last]
      rfl
  | .while_ condition body, spelled => by
      change Statement.while_ (.ofNest condition.nest) (ofNest body.nest) = _
      rw [Expression.ofNest_nest spelled.1, ofNest_nest spelled.2]
      rfl
  | .func name parameters body, spelled => by
      have names : (parameters.map fun parameter => Nest.word parameter.text).map Name.ofNest =
          parameters.map Name.outline := List.map_map
      change Statement.func name.outline
        ((parameters.map fun parameter => Nest.word parameter.text).map Name.ofNest)
        (ofNestAll (nestAll body)) = _
      rw [names, ofNestAll_nestAll spelled.2.2]
      rfl
  | .let_ _ none, _ => rfl
  | .let_ name (some initial), spelled => by
      change Statement.let_ name.outline (some (.ofNest initial.nest)) = _
      rw [Expression.ofNest_nest (spelled.2 initial rfl)]
      rfl
  | .return_ _ none, _ => rfl
  | .return_ _ (some value), spelled => by
      change Statement.return_ 0 (some (.ofNest value.nest)) = _
      rw [Expression.ofNest_nest (spelled value rfl)]
      rfl
  | .block statements, spelled => by
      have inside : ofNestAll (nestAll statements) = outlineAll statements :=
        ofNestAll_nestAll spelled
      change Statement.block (ofNestAll (nestAll statements)) = _
      rw [inside]
      rfl

/-- Spelled statements are read back as their outlines. -/
theorem ofNestAll_nestAll : ∀ {statements : List Statement}, SpelledAll statements →
    ofNestAll (nestAll statements) = outlineAll statements
  | [], _ => rfl
  | statement :: rest, spelled => by
      rw [nestAll, ofNestAll, ofNest_nest spelled.1, ofNestAll_nestAll spelled.2, outlineAll]

end

end Statement

end Reading

/-- Two statements of any texts are listed alike exactly when they differ in nothing but lines, and
in infinite numbers that stand for the name of infinity. -/
theorem nested_eq_iff {source other : String} {first second : Statement}
    (read : first ∈ (Program.ofTokens (scan source).tokens).statements)
    (readToo : second ∈ (Program.ofTokens (scan other).tokens).statements) :
    first.nested = second.nested ↔ first.outline = second.outline := by
  have spelled : first.Spelled := program_spelled read
  have spelledToo : second.Spelled := program_spelled readToo
  constructor
  · intro same
    have texts : first.nest.text = second.nest.text := by
      rw [← first.toList_nested, ← second.toList_nested, same]
    have nests := Nest.text_inj spelled.clear spelledToo.clear texts
    rw [← Statement.ofNest_nest spelled, nests, Statement.ofNest_nest spelledToo]
  · intro same
    rw [← first.nested_outline, same, second.nested_outline]

/-- The same branch stands one line lower and with other spaces. -/
theorem nested_eq_iff_lower :
    let tree (line : Nat) : Statement := .if_ (.reference ⟨"a", line⟩)
      (.block [.expression (.assign ⟨"b", line + 1⟩ (.binary .subtract
        (.unary .negate (.reference ⟨"c", line + 1⟩) (line + 1))
        (.constant (.string "(d") (line + 1)) (line + 1)))]) none
    let source := "if a then\n    b = -c - \"(d\"\n"
    let other := "\nif a then\n    b=- c-\"(d\""
    tree 1 ∈ (Program.ofTokens (scan source).tokens).statements ∧
      tree 2 ∈ (Program.ofTokens (scan other).tokens).statements ∧
      (tree 1).nested = (tree 2).nested ∧ (tree 1).outline = (tree 2).outline := by
  intro tree source other
  have read : tree 1 ∈ (Program.ofTokens (scan source).tokens).statements := by
    change _ ∈ (Program.ofTokens (scan "if a then\n    b = -c - \"(d\"\n").tokens).statements
    unfold scan
    rw [Piece.split_eq_splitWithin (Nat.le_refl 28)]
    exact List.mem_cons_self
  have readToo : tree 2 ∈ (Program.ofTokens (scan other).tokens).statements := by
    change _ ∈ (Program.ofTokens (scan "\nif a then\n    b=- c-\"(d\"").tokens).statements
    unfold scan
    rw [Piece.split_eq_splitWithin (Nat.le_refl 25)]
    exact List.mem_cons_self
  exact ⟨read, readToo, rfl, (nested_eq_iff read readToo).1 rfl⟩

end Offside
