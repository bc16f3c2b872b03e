/-
This file proves that the expression parser reads all that the grammar derives.
-/

import Offside.Proofs.Expression.Sound

namespace Offside

/-- After a whole expression such a token would belong to it. -/
def Kind.extendsExpression : Kind → Bool
  | .symbol .equal | .symbol .plusPlus | .symbol .minusMinus => true
  | .keyword .or | .keyword .and => true
  | .symbol .equalEqual | .symbol .bangEqual => true
  | .symbol .less | .symbol .lessEqual | .symbol .greater | .symbol .greaterEqual => true
  | .symbol .plus | .symbol .minus | .symbol .star | .symbol .slash => true
  | .symbol .leftParen => true
  | _ => false

/-- A token of this kind continues no call and no chain of the given levels. -/
structure StopsAt (levels : List Level) (kind : Kind) : Prop where
  noCall : kind ≠ .symbol .leftParen
  noConnective : ∀ level ∈ levels, level.connective? kind = none

/-- Every connective extends an expression. -/
theorem Level.extends_of_connective {level : Level} {kind : Kind} {connective : Connective}
    (sign : level.connective? kind = some connective) : kind.extendsExpression = true := by
  unfold connective? at sign
  split at sign <;> cases sign <;> rfl

/-- A token that extends no expression stops every level. -/
theorem stopsAt_all {kind : Kind} (ends : kind.extendsExpression = false) :
    StopsAt Level.all kind where
  noCall same := by rw [same] at ends; cases ends
  noConnective level _ := by
    cases sign : level.connective? kind with
    | none => rfl
    | some connective =>
        rw [Level.extends_of_connective sign] at ends
        cases ends

/-- The signs after the name that is assigned belong to no operand. -/
theorem stopsAt_sign {kind : Kind} (sign : kind = .symbol .equal ∨ kind = .symbol .plusPlus ∨
    kind = .symbol .minusMinus) : StopsAt Level.all kind := by
  obtain rfl | rfl | rfl := sign
  · exact ⟨by simp, by decide⟩
  · exact ⟨by simp, by decide⟩
  · exact ⟨by simp, by decide⟩

/-- A sign joins operands at one level only. -/
theorem Level.connective_unique {first second : Level} {kind : Kind} {left right : Connective}
    (one : first.connective? kind = some left) (other : second.connective? kind = some right) :
    first = second := by
  unfold connective? at one
  split at one <;> cases one <;> cases second <;> cases other <;> rfl

/-- A connective of one level stops the tighter ones. -/
theorem stopsAt_connective {level : Level} {levels : List Level} {kind : Kind}
    {connective : Connective} (distinct : (level :: levels).Nodup)
    (sign : level.connective? kind = some connective) : StopsAt levels kind where
  noCall same := by
    rw [same] at sign
    cases level <;> cases sign
  noConnective other member := by
    cases found : other.connective? kind with
    | none => rfl
    | some second =>
        rw [Level.connective_unique sign found] at distinct
        exact absurd member (List.nodup_cons.1 distinct).1

namespace Parser

open Cursor Grammar

/-- A cursor before tokens that start in this way sees such a kind. -/
theorem starts_at {sort : Kind → Bool} {cursor : Cursor} {used later : List Token}
    (starts : StartsWith sort used) (tokens : cursor.rest = used ++ later) :
    sort cursor.kind = true := by
  obtain ⟨token, rest, rfl, kind⟩ := starts
  rwa [kind_of_rest tokens]

section Levels

variable {inner : Parser Expression} {limit : Nat}

/-- The parser finds every expression of at most so many tokens, where it ends. -/
def Complete (limit : Nat) (parser : Parser Expression) : Prop :=
  ∀ ⦃used : List Token⦄ ⦃tree : Expression⦄ ⦃later : List Token⦄, Assignment used tree →
    used.length ≤ limit → (headKind later).extendsExpression = false →
    Finds parser used tree later

/-- Before a token that ends it, an expression is found and that token comes next. -/
theorem Complete.before {α : Type} {next : Expression → Parser α} {good : α → Cursor → Prop}
    {bad : SyntaxError → Cursor → Prop} {cursor : Cursor} {used later : List Token} {stop : Token}
    {tree : Expression} (complete : Complete limit inner) (derivation : Assignment used tree)
    (fits : used.length ≤ limit) (ends : stop.kind.extendsExpression = false)
    (tokens : cursor.rest = used ++ stop :: later)
    (continues : ∀ after, cursor.Passes used after → after.rest = stop :: later →
      Ensures (next tree) after good bad) : Ensures (inner >>= next) cursor good bad := by
  have finds : Finds inner used tree (stop :: later) := complete derivation fits ends
  exact finds.step tokens continues

/-- The parser finds every primary that its budget covers. -/
theorem primary_finds {used later : List Token} {tree : Expression}
    (complete : Complete limit inner) (derivation : Primary used tree)
    (fits : used.length ≤ limit + 1) : Finds (primary inner) used tree later := by
  intro cursor tokens
  rw [primary, ensures_bind, ensures_here]
  cases derivation with
  | @literal token value same =>
      have here := token_of_rest tokens
      have kind := kind_of_rest tokens
      have passes := next_of_rest tokens
      unfold Constant.ofToken? at same
      split at same <;> cases same <;>
        simp_all only [ensures_bind, ensures_skip, ensures_pure, and_self]
  | reference isName =>
      rw [(kind_of_rest tokens).trans isName, token_of_rest tokens]
      apply skip_step tokens
      intro after named _
      exact ⟨rfl, named⟩
  | group opens derivation closes =>
      rw [(kind_of_rest tokens).trans opens]
      rw [List.length_cons, List.length_append, List.length_singleton] at fits
      rw [List.cons_append, List.append_assoc] at tokens
      apply skip_step tokens
      intro second opened rest
      apply complete.before derivation (by omega) (by rw [closes]; rfl) rest
      intro third passes remaining
      apply expect_step remaining closes
      intro after closed _
      exact ⟨rfl, opened.trans (passes.trans closed)⟩

/-- The parser finds every list of arguments that its budget covers. -/
theorem arguments_finds {budget : Nat} {used later : List Token} {values : List Expression}
    (complete : Complete limit inner) (derivation : Arguments used values)
    (within : used.length ≤ budget) (fits : used.length ≤ limit)
    (ends : (headKind later).extendsExpression = false)
    (noComma : headKind later ≠ .symbol .comma) :
    Finds (arguments inner budget) used values later := by
  induction budget generalizing used values with
  | zero => exact absurd derivation.starts.nonempty (by omega)
  | succ budget inductionHypothesis =>
      intro cursor tokens
      cases derivation with
      | last derivation =>
          apply (complete derivation fits ends).step tokens
          intro after passes rest
          apply accept_stay
          · rwa [kind_eq, rest]
          · exact ⟨rfl, passes⟩
      | @more first others comma value values derivation isComma further =>
          rw [List.append_assoc] at tokens
          rw [List.length_append, List.length_cons] at within fits
          apply complete.before derivation (by omega) (by rw [isComma]; rfl) tokens
          intro second passes rest
          apply accept_step rest isComma
          intro third separated remaining
          rw [if_pos rfl]
          apply (inductionHypothesis further (by omega) (by omega)).step remaining
          intro after passesOthers _
          exact ⟨rfl, passes.trans (separated.trans passesOthers)⟩

/-- Where the calls of a derivation end, the loop still has the reserve of its budget. -/
theorem calls_loop {used : List Token} {tree : Expression} {cursor after : Cursor}
    {good : Expression → Cursor → Prop} {bad : SyntaxError → Cursor → Prop}
    (complete : Complete limit inner) :
    Call used tree → ∀ budget reserve later, used.length ≤ limit + 1 →
      used.length + reserve ≤ budget → cursor.rest = used ++ later → cursor.Passes used after →
      (∀ remaining, reserve ≤ remaining → Ensures (calls inner remaining tree) after good bad) →
      Ensures (primary inner >>= calls inner budget) cursor good bad
  | .primary derivation => by
      intro budget reserve later fits within tokens passes continues
      rw [ensures_bind]
      exact (primary_finds complete derivation fits).ensures tokens passes
        (continues budget (by omega))
  | @Call.empty first opening closing callee derivation opens closes => by
      -- A derivation grows at its right end, where the loop comes last: the recursion is on the
      -- calls before this one, and the rounds from here on are what continues after them.
      intro budget reserve later fits within tokens passes continues
      rw [List.length_append, List.length_cons, List.length_singleton] at fits within
      rw [List.append_assoc] at tokens
      obtain ⟨middle, passesFirst, rest⟩ := exists_passes tokens
      apply calls_loop complete derivation budget (reserve + 1) _ (by omega) (by omega) tokens
        passesFirst
      intro remaining enough
      cases remaining with
      | zero => omega
      | succ remaining =>
          rw [calls, ensures_bind, ensures_here, if_pos ((kind_of_rest rest).trans opens),
            token_of_rest rest]
          apply skip_step rest
          intro third opened left
          rw [ensures_bind, ensures_peek, if_pos ((kind_of_rest left).trans closes)]
          apply expect_step left closes
          intro fourth closed _
          rw [(passesFirst.trans (opened.trans closed)).unique passes]
          exact continues remaining (by omega)
  | @Call.apply first inside opening closing callee values derivation opens applied closes => by
      intro budget reserve later fits within tokens passes continues
      simp only [List.length_append, List.length_cons, List.length_nil] at fits within
      rw [List.append_assoc, List.cons_append, List.append_assoc] at tokens
      obtain ⟨middle, passesFirst, rest⟩ := exists_passes tokens
      have ends : headKind (closing :: later) = .symbol .rightParen := closes
      apply calls_loop complete derivation budget (inside.length + 1 + reserve) _ (by omega)
        (by omega) tokens passesFirst
      intro remaining enough
      cases remaining with
      | zero => omega
      | succ remaining =>
          rw [calls, ensures_bind, ensures_here, if_pos ((kind_of_rest rest).trans opens),
            token_of_rest rest]
          apply skip_step rest
          intro third opened left
          have notEmpty : third.kind ≠ .symbol .rightParen := by
            have starts := starts_at applied.starts left
            intro empty
            rw [empty] at starts
            cases starts
          have finds : Finds (arguments inner remaining) inside values (closing :: later) :=
            arguments_finds complete applied (by omega) (by omega) (by rw [ends]; rfl)
              (by rw [ends]; simp)
          rw [ensures_bind, ensures_peek, if_neg notEmpty]
          apply finds.step left
          intro fourth passesInside last
          apply expect_step last closes
          intro fifth closed _
          rw [(passesFirst.trans (opened.trans (passesInside.trans closed))).unique passes]
          exact continues remaining (by omega)
termination_by used.length
decreasing_by
  all_goals
    rw [List.length_append, List.length_cons]
    omega

/-- The parser finds every operand with its signs and calls. -/
theorem unary_finds {budget : Nat} {used later : List Token} {tree : Expression}
    (complete : Complete limit inner) (derivation : Unary used tree)
    (within : used.length ≤ budget) (fits : used.length ≤ limit + 1)
    (stops : StopsAt [] (headKind later)) : Finds (unary inner budget) used tree later := by
  induction budget generalizing used tree with
  | zero => exact absurd derivation.starts.nonempty (by omega)
  | succ budget inductionHypothesis =>
      intro cursor tokens
      rw [unary, ensures_bind, ensures_here]
      cases derivation with
      | operator isSign derivation =>
          rw [List.length_cons] at within fits
          rw [kind_of_rest tokens, isSign, token_of_rest tokens]
          apply skip_step tokens
          intro middle signed rest
          apply (inductionHypothesis derivation (by omega) (by omega)).step rest
          intro after passes _
          exact ⟨rfl, signed.trans passes⟩
      | call derivation =>
          obtain ⟨after, passes, rest⟩ := exists_passes tokens
          have noOperator : UnaryOperator.ofKind? cursor.kind = none := by
            have starts := starts_at derivation.starts tokens
            unfold Kind.startsPrimary at starts
            split at starts <;> simp_all [UnaryOperator.ofKind?]
          have noCall : after.kind ≠ .symbol .leftParen := by
            rw [kind_eq, rest]
            exact stops.noCall
          rw [noOperator]
          apply calls_loop complete derivation (budget + 1) 0 later fits within tokens passes
          intro remaining _
          cases remaining with
          | zero => exact ⟨rfl, passes⟩
          | succ remaining =>
              rw [calls, ensures_bind, ensures_here, if_neg noCall]
              exact ⟨rfl, passes⟩

/-- Where the operands of a derivation end, the loop still has the reserve of its budget. -/
theorem chain_loop {level : Level} {levels : List Level} {operand : Parser Expression}
    {used : List Token} {tree : Expression} {cursor after : Cursor}
    {good : Expression → Cursor → Prop} {bad : SyntaxError → Cursor → Prop}
    (distinct : (level :: levels).Nodup)
    (tighter : ∀ ⦃used tree later⦄, Chain levels used tree → used.length ≤ limit →
      StopsAt levels (headKind later) → Finds operand used tree later) :
    Chain (level :: levels) used tree → ∀ budget reserve later, used.length ≤ limit →
      used.length + reserve ≤ budget → StopsAt levels (headKind later) →
      cursor.rest = used ++ later → cursor.Passes used after →
      (∀ remaining, reserve ≤ remaining →
        Ensures (chain level operand remaining tree) after good bad) →
      Ensures (operand >>= chain level operand budget) cursor good bad
  | .single derivation => by
      intro budget reserve later fits within stops tokens passes continues
      rw [ensures_bind]
      exact (tighter derivation fits stops).ensures tokens passes (continues budget (by omega))
  | @Chain.join _ _ first second sign connective left right leftDerivation isSign derivation => by
      intro budget reserve later fits within stops tokens passes continues
      rw [List.length_append, List.length_cons] at fits within
      rw [List.append_assoc] at tokens
      obtain ⟨middle, passesFirst, rest⟩ := exists_passes tokens
      apply chain_loop distinct tighter leftDerivation budget (reserve + 1)
        (sign :: second ++ later) (by omega) (by omega) (stopsAt_connective distinct isSign) tokens
        passesFirst
      intro remaining enough
      cases remaining with
      | zero => omega
      | succ remaining =>
          rw [chain, ensures_bind, ensures_here, kind_of_rest rest, isSign, token_of_rest rest]
          apply skip_step rest
          intro third signed left
          apply (tighter derivation (by omega) stops).step left
          intro fourth passesSecond _
          rw [(passesFirst.trans (signed.trans passesSecond)).unique passes]
          exact continues remaining (by omega)
termination_by used.length
decreasing_by
  rw [List.length_append, List.length_cons]
  omega

/-- The parser finds every chain of its levels. -/
theorem tower_finds {levels : List Level} {used later : List Token} {tree : Expression}
    (complete : Complete limit inner) (distinct : levels.Nodup)
    (derivation : Chain levels used tree) (fits : used.length ≤ limit + 1)
    (stops : StopsAt levels (headKind later)) :
    Finds (tower (unary inner (limit + 1)) (limit + 1) levels) used tree later := by
  induction levels generalizing used tree later with
  | nil =>
      cases derivation with
      | operand derivation => exact unary_finds complete derivation fits fits stops
  | cons level levels inductionHypothesis =>
      intro cursor tokens
      obtain ⟨after, passes, rest⟩ := exists_passes tokens
      have noConnective : level.connective? after.kind = none := by
        rw [kind_eq, rest]
        exact stops.noConnective level List.mem_cons_self
      have looser : StopsAt levels (headKind later) :=
        ⟨stops.noCall, fun other member => stops.noConnective other (List.mem_cons_of_mem _ member)⟩
      apply chain_loop distinct (fun _ _ _ shorter =>
        inductionHypothesis (List.nodup_cons.1 distinct).2 shorter) derivation
        (limit + 1) 0 later fits fits looser tokens passes
      intro remaining _
      cases remaining with
      | zero => exact ⟨rfl, passes⟩
      | succ remaining =>
          rw [chain, ensures_bind, ensures_here, noConnective]
          exact ⟨rfl, passes⟩

/-- A name before a sign of assignment is found as the target. -/
theorem target_finds {name sign : Token} {later : List Token} (complete : Complete limit inner)
    (isName : name.kind = .name) (stops : StopsAt Level.all sign.kind) :
    Finds (tower (unary inner (limit + 1)) (limit + 1) Level.all) [name]
      (.reference (.ofToken name)) (sign :: later) := by
  have primary : Primary [name] (.reference (.ofToken name)) := .reference isName
  have derivation : Chain Level.all [name] (.reference (.ofToken name)) :=
    .single (.single (.single (.single (.single (.single (.operand (.call (.primary primary))))))))
  exact tower_finds complete (by decide) derivation (Nat.le_add_left 1 limit) stops

/-- A name that is counted up or down is found with its sign. -/
theorem stepped_found {operator : BinaryOperator} {mistake : Mistake} {cursor place : Cursor}
    {name sign : Token} {later : List Token} (named : cursor.Passes [name] place)
    (rest : place.rest = sign :: later) :
    Ensures (skip >>= fun _ => step place (.reference (.ofToken name)) operator mistake) place
      (fun found after => found = .stepped operator name sign ∧ cursor.Passes [name, sign] after)
      fun _ _ => False := by
  apply skip_step rest
  intro after signed _
  rw [step, token_of_rest rest]
  exact ⟨rfl, named.trans signed⟩

/-- The parser finds every assignment that its budget covers. -/
theorem assignment_finds {used later : List Token} {tree : Expression}
    (complete : Complete limit inner) (derivation : Assignment used tree)
    (fits : used.length ≤ limit + 1) (ends : (headKind later).extendsExpression = false) :
    Finds (assignment inner (limit + 1)) used tree later := by
  intro cursor tokens
  cases derivation with
  | assign isName isEqual derivation =>
      rw [List.length_cons, List.length_cons] at fits
      apply (target_finds complete isName (stopsAt_sign (.inl isEqual))).step tokens
      intro place named rest
      rw [ensures_bind, ensures_here, (kind_of_rest rest).trans isEqual]
      apply skip_step rest
      intro middle signed remaining
      apply (complete derivation (by omega) ends).step remaining
      intro after passes _
      exact ⟨rfl, named.trans (signed.trans passes)⟩
  | increment isName isSign =>
      apply (target_finds complete isName (stopsAt_sign (.inr (.inl isSign)))).step tokens
      intro place named rest
      rw [ensures_bind, ensures_here, (kind_of_rest rest).trans isSign]
      exact stepped_found named rest
  | decrement isName isSign =>
      apply (target_finds complete isName (stopsAt_sign (.inr (.inr isSign)))).step tokens
      intro place named rest
      rw [ensures_bind, ensures_here, (kind_of_rest rest).trans isSign]
      exact stepped_found named rest
  | chain derivation =>
      apply (tower_finds complete (by decide) derivation fits (stopsAt_all ends)).step tokens
      intro after passes rest
      have kind : after.kind.extendsExpression = false := by rwa [kind_eq, rest]
      rw [ensures_bind, ensures_here]
      split
      next sign => simp [sign, Kind.extendsExpression] at kind
      next sign => simp [sign, Kind.extendsExpression] at kind
      next sign => simp [sign, Kind.extendsExpression] at kind
      next => exact ⟨rfl, passes⟩

end Levels

/-- A budget finds every expression that it covers. -/
theorem expressionWithin_complete (budget : Nat) : Complete budget (expressionWithin budget) := by
  induction budget with
  | zero =>
      intro used tree later derivation fits
      exact absurd derivation.starts.nonempty (by omega)
  | succ budget inductionHypothesis =>
      intro used tree later derivation fits ends
      exact assignment_finds inductionHypothesis derivation fits ends

/-- Every derived expression is found where it ends. -/
theorem expression_finds {used later : List Token} {tree : Expression}
    (derivation : Assignment used tree) (ends : (headKind later).extendsExpression = false) :
    Finds expression used tree later := by
  intro cursor tokens
  apply expressionWithin_complete cursor.rest.length derivation _ ends cursor tokens
  rw [tokens, List.length_append]
  exact Nat.le_add_right _ _

/-- Expressions hold flat tokens only: the parser walks over no others. -/
theorem flat_of_assignment {used : List Token} {tree : Expression}
    (derivation : Assignment used tree) : ∀ token ∈ used, token.kind.isFlat = true := by
  let cursor : Cursor := ⟨used ++ [], 0, 0, [], []⟩
  have finds : Finds expression used tree [] := expression_finds derivation rfl
  obtain ⟨found, after, run, -, passes⟩ := (finds cursor rfl).succeeds
  obtain ⟨others, walks, -⟩ := (expression_reads cursor).ok run
  have same : used = others :=
    List.append_cancel_right (passes.rest.symm.trans walks.rest)
  rw [same]
  exact walks.flat

/-- The expression parser implements exactly its grammar: the tokens that it consumes derive the
tree, and it reads every derivation before a token that cannot extend it. -/
theorem expression_exact :
    (∀ (tokens : List Token) (tree : Expression) (after : Cursor),
      expression (.ofTokens tokens) = .ok tree after →
        Assignment (tokens.take after.position) tree) ∧
    (∀ (used : List Token) (tree : Expression) (later : List Token), Assignment used tree →
      (headKind later).extendsExpression = false →
        ∃ after, expression (.ofTokens (used ++ later)) = .ok tree after ∧
          after.position = used.length) := by
  constructor
  · intro tokens tree after run
    obtain ⟨used, walks, derivation⟩ := (expression_reads (.ofTokens tokens)).ok run
    rwa [walks.take_position]
  · intro used tree later derivation ends
    have goesOn : ∀ token ∈ used, token.kind ≠ .eof := by
      intro token member eof
      have flat := flat_of_assignment derivation token member
      rw [eof] at flat
      cases flat
    have tokens : (Cursor.ofTokens (used ++ later)).rest = used ++ script later := by
      rw [ofTokens_rest, script_append goesOn]
    have finds : Finds expression used tree (script later) :=
      expression_finds derivation (by rwa [headKind_script])
    obtain ⟨found, after, run, rfl, passes⟩ := (finds _ tokens).succeeds
    exact ⟨after, run, passes.position.trans (Nat.zero_add _)⟩

/-- At the tokens of `a = -b(c) + d * e == f` and a semicolon, the product is inside the sum, the
sum is inside the comparison, and the parser stops before the semicolon. -/
theorem expression_exact_levels :
    let named := fun text => Token.ofText .name [text] 1
    let signed := fun symbol => Token.ofText (.symbol symbol) [] 1
    let used := [named 'a', signed .equal, signed .minus, named 'b', signed .leftParen, named 'c',
      signed .rightParen, signed .plus, named 'd', signed .star, named 'e', signed .equalEqual,
      named 'f']
    let reference := fun text => Expression.reference (.ofToken (named text))
    let tree := Expression.assign (.ofToken (named 'a'))
      (.binary .equal
        (.binary .add (.unary .negate (.call (reference 'b') [reference 'c'] 1) 1)
          (.binary .multiply (reference 'd') (reference 'e') 1) 1)
        (reference 'f') 1)
    ∃ after, expression (.ofTokens (used ++ [signed .semicolon])) = .ok tree after ∧
      after.position = used.length ∧
      Assignment ((used ++ [signed .semicolon]).take after.position) tree := by
  intro named signed used reference tree
  have operand (text : Char) : Unary [named text] (reference text) :=
    .call (.primary (.reference rfl))
  have argument : Assignment [named 'c'] (reference 'c') :=
    .chain (.single (.single (.single (.single (.single (.single (.operand (operand 'c'))))))))
  have called : Call [named 'b', signed .leftParen, named 'c', signed .rightParen]
      (.call (reference 'b') [reference 'c'] 1) :=
    .apply (.primary (.reference rfl)) rfl (.last argument) rfl
  have negated := Unary.operator (rfl : UnaryOperator.ofKind? (signed .minus).kind = some .negate)
    (.call called)
  have product : Chain [.product] ([named 'd'] ++ signed .star :: [named 'e']) _ :=
    .join (.single (.operand (operand 'd'))) rfl (.operand (operand 'e'))
  have sum : Chain [.sum, .product] (_ ++ signed .plus :: _) _ :=
    .join (.single (.single (.operand negated))) rfl product
  have equality : Chain [.equality, .comparison, .sum, .product]
      (_ ++ signed .equalEqual :: [named 'f']) _ :=
    .join (.single (.single sum)) rfl (.single (.single (.single (.operand (operand 'f')))))
  have derivation : Assignment used tree :=
    .assign rfl rfl (.chain (.single (.single equality)))
  obtain ⟨after, run, position⟩ :=
    expression_exact.2 used tree [signed .semicolon] derivation rfl
  exact ⟨after, run, position, expression_exact.1 _ tree after run⟩

end Parser

end Offside
