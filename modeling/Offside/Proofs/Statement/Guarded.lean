/-
This file finds an `if` or a `while` whose branches are blocks in a list of statements, and says
which tokens a search after a mistake in its header skips.
-/

import Offside.Proofs.Statement.Continuation

namespace Offside

/-- A guard is the header of an `if` or of a `while`. Where an `else` comes after the first branch,
the guard knows this token and the tokens between the condition and it. -/
inductive Guard where
  | if_
  | ifElse (branch : List Token) (word : Token)
  | while_

namespace Guard

def requirement : Guard → Requirement
  | if_ | ifElse _ _ => .thenAfterIf
  | while_ => .thenAfterWhile

/-- A token that stands before the `then` of the guard is a mistake. The search after it ends before
an `else`, which starts no statement and is a mistake of its own. -/
def errors (guard : Guard) (extra : Token) (position : Nat) : List SyntaxError :=
  let first := ⟨.missing guard.requirement extra.kind, extra.line, position⟩
  match guard with
  | if_ | while_ => [first]
  | ifElse branch word =>
    [first, ⟨.noExpression word.kind, word.line, position + 1 + branch.length⟩]

end Guard

namespace Grammar

open Cursor

/-- An `if` or a `while` whose branches are all blocks: its tokens before the `then` of its
condition, those from there on, its tree and the tokens after it. -/
inductive Guarded : List Token → List Token → Statement → List Token → Guard → Prop
  | if_ {word then_ : Token} {tokens inside rest : List Token} {condition : Expression}
      {success : List Statement} :
      word.kind = .keyword .if_ → Assignment tokens condition → then_.kind = .keyword .then_ →
      Block inside success rest → headKind rest ≠ .keyword .else_ →
      Guarded (word :: tokens) (then_ :: inside) (.if_ condition (.block success) none) rest .if_
  | ifElse {word then_ else_ next : Token} {tokens inside others rest : List Token}
      {condition : Expression} {success failure : List Statement} :
      word.kind = .keyword .if_ → Assignment tokens condition → then_.kind = .keyword .then_ →
      Block (inside ++ else_ :: next :: others) success (else_ :: next :: others) →
      else_.kind = .keyword .else_ → next.kind = .keyword .then_ → Block others failure rest →
      Guarded (word :: tokens) (then_ :: (inside ++ else_ :: next :: others))
        (.if_ condition (.block success) (some (.block failure))) rest
        (.ifElse (then_ :: inside) else_)
  | while_ {word then_ : Token} {tokens inside rest : List Token} {condition : Expression}
      {body : List Statement} :
      word.kind = .keyword .while_ → Assignment tokens condition → then_.kind = .keyword .then_ →
      Block inside body rest →
      Guarded (word :: tokens) (then_ :: inside) (.while_ condition (.block body)) rest .while_

/-
The next relations follow the grammar down to a guarded statement that stands in a list, at any
depth. They hold between the tokens before the `then` of its condition, the tree with it, the tree
without it and the tokens after the tree. The tokens from that `then` on are the same all the way.
-/

mutual

inductive Holds (after : List Token) (guard : Guard) :
    List Token → Statement → Statement → List Token → Prop
  | if_ {word then_ : Token} {tokens before rest : List Token} {condition : Expression}
      {success pruned : Statement} :
      word.kind = .keyword .if_ → Assignment tokens condition → then_.kind = .keyword .then_ →
      Holds after guard before success pruned rest → headKind rest ≠ .keyword .else_ →
      Holds after guard (word :: (tokens ++ then_ :: before)) (.if_ condition success none)
        (.if_ condition pruned none) rest
  | firstBranch {word then_ else_ next : Token} {tokens before others rest : List Token}
      {condition : Expression} {success pruned failure : Statement} :
      word.kind = .keyword .if_ → Assignment tokens condition → then_.kind = .keyword .then_ →
      Holds after guard before success pruned (else_ :: next :: others) →
      else_.kind = .keyword .else_ → next.kind = .keyword .then_ → Derives others failure rest →
      Holds after guard (word :: (tokens ++ then_ :: before))
        (.if_ condition success (some failure)) (.if_ condition pruned (some failure)) rest
  | secondBranch {word then_ else_ next : Token} {tokens inside before rest : List Token}
      {condition : Expression} {success failure pruned : Statement} :
      word.kind = .keyword .if_ → Assignment tokens condition → then_.kind = .keyword .then_ →
      Derives (inside ++ else_ :: next :: (before ++ after)) success
        (else_ :: next :: (before ++ after)) →
      else_.kind = .keyword .else_ → next.kind = .keyword .then_ →
      Holds after guard before failure pruned rest →
      Holds after guard (word :: (tokens ++ then_ :: (inside ++ else_ :: next :: before)))
        (.if_ condition success (some failure)) (.if_ condition success (some pruned)) rest
  | while_ {word then_ : Token} {tokens before rest : List Token} {condition : Expression}
      {body pruned : Statement} :
      word.kind = .keyword .while_ → Assignment tokens condition → then_.kind = .keyword .then_ →
      Holds after guard before body pruned rest →
      Holds after guard (word :: (tokens ++ then_ :: before)) (.while_ condition body)
        (.while_ condition pruned) rest
  | for_ {word then_ : Token} {tokens before rest : List Token} {initializer : Option Statement}
      {condition : Expression} {increment : Option Expression} {body pruned : Statement} :
      word.kind = .keyword .for_ → Header tokens initializer condition increment →
      then_.kind = .keyword .then_ → Holds after guard before body pruned rest →
      Holds after guard (word :: (tokens ++ then_ :: before))
        (.forLoop initializer condition increment body)
        (.forLoop initializer condition increment pruned) rest
  | func {word name colon equal : Token} {tokens gap before rest : List Token} {names : List Name}
      {body pruned : List Statement} :
      word.kind = .keyword .func → name.kind = .name → colon.kind = .symbol .colon →
      Parameters tokens names → equal.kind = .symbol .equal → LineBreak gap →
      BlockHolds after guard before body pruned rest →
      Holds after guard (word :: name :: colon :: (tokens ++ equal :: (gap ++ before)))
        (.func (.ofToken name) names body) (.func (.ofToken name) names pruned) rest
  | block {before rest : List Token} {body pruned : List Statement} :
      BlockHolds after guard before body pruned rest →
      Holds after guard before (.block body) (.block pruned) rest

inductive BlockHolds (after : List Token) (guard : Guard) :
    List Token → List Statement → List Statement → List Token → Prop
  | closed {indent dedent : Token} {before rest : List Token} {body pruned : List Statement} :
      indent.kind = .indent → ListHolds after guard before body pruned (dedent :: rest) →
      dedent.kind = .dedent → BlockHolds after guard (indent :: before) body pruned rest
  | ended {indent : Token} {before : List Token} {body pruned : List Statement} :
      indent.kind = .indent → ListHolds after guard before body pruned [] →
      BlockHolds after guard (indent :: before) body pruned []

/-- The guarded statement is the first one of the list, or stands inside it, or comes later. -/
inductive ListHolds (after : List Token) (guard : Guard) :
    List Token → List Statement → List Statement → List Token → Prop
  | here {before middle rest : List Token} {tree : Statement} {others : List Statement} :
      Guarded before after tree middle guard → Sequence middle others rest →
      ListHolds after guard before (tree :: others) others rest
  | inside {before middle rest : List Token} {tree pruned : Statement}
      {others : List Statement} :
      Holds after guard before tree pruned middle → Sequence middle others rest →
      ListHolds after guard before (tree :: others) (pruned :: others) rest
  | later {start before rest : List Token} {tree : Statement} {others pruned : List Statement} :
      Derives (start ++ (before ++ after)) tree (before ++ after) →
      ListHolds after guard before others pruned rest →
      ListHolds after guard (start ++ before) (tree :: others) (tree :: pruned) rest

end

section Origin

variable {before after : List Token} {guard : Guard}

/-- A guarded statement is derived from all its tokens. -/
theorem Guarded.derives {tree : Statement} {rest : List Token}
    (guarded : Guarded before after tree rest guard) : Derives (before ++ after) tree rest := by
  cases guarded with
  | if_ word condition isThen success alone =>
      exact .if_ word condition isThen (.block success) alone
  | ifElse word condition isThen success isElse isNext failure =>
      exact .ifElse word condition isThen (.block success) isElse isNext (.block failure)
  | while_ word condition isThen body => exact .while_ word condition isThen (.block body)

mutual

/-- With the guarded statement, the tokens derive the tree that has it. -/
theorem Holds.derives {before rest : List Token} {tree pruned : Statement} :
    Holds after guard before tree pruned rest → Derives (before ++ after) tree rest
  | .if_ word condition isThen success alone => by
      simp only [List.cons_append, List.append_assoc]
      exact .if_ word condition isThen success.derives alone
  | .firstBranch word condition isThen success isElse isNext failure => by
      simp only [List.cons_append, List.append_assoc]
      exact .ifElse word condition isThen success.derives isElse isNext failure
  | .secondBranch word condition isThen success isElse isNext failure => by
      simp only [List.cons_append, List.append_assoc]
      exact .ifElse word condition isThen success isElse isNext failure.derives
  | .while_ word condition isThen body => by
      simp only [List.cons_append, List.append_assoc]
      exact .while_ word condition isThen body.derives
  | .for_ word header isThen body => by
      simp only [List.cons_append, List.append_assoc]
      exact .for_ word header isThen body.derives
  | .func word isName isColon listed isEqual broken body => by
      simp only [List.cons_append, List.append_assoc]
      exact .func word isName isColon listed isEqual broken body.derives
  | .block body => .block body.derives

/-- A block that holds a guarded statement is derived from all its tokens. -/
theorem BlockHolds.derives {before rest : List Token} {body pruned : List Statement} :
    BlockHolds after guard before body pruned rest → Block (before ++ after) body rest
  | .closed indent inside dedent => .closed indent inside.derives dedent
  | .ended indent inside => .ended indent inside.derives

/-- A list that holds a guarded statement is derived from all its tokens. -/
theorem ListHolds.derives {before rest : List Token} {trees pruned : List Statement} :
    ListHolds after guard before trees pruned rest → Sequence (before ++ after) trees rest
  | .here guarded others => .cons guarded.derives others
  | .inside tree others => .cons tree.derives others
  | .later first others => by
      rw [List.append_assoc]
      exact .cons first others.derives

end

/-- A block that holds a guarded statement starts with an indent. -/
theorem BlockHolds.starts {rest : List Token} {body pruned : List Statement}
    (holds : BlockHolds after guard before body pruned rest) :
    ∃ token inside, before = token :: inside ∧ token.kind = .indent := by
  cases holds with
  | closed indent => exact ⟨_, _, rfl, indent⟩
  | ended indent => exact ⟨_, _, rfl, indent⟩

/-- A guarded statement starts with a kind that starts statements. -/
theorem Guarded.starts {tree : Statement} {rest : List Token}
    (guarded : Guarded before after tree rest guard) : StartsWith startsLine before := by
  cases guarded with
  | if_ word => exact ⟨_, _, rfl, by rw [word]; rfl⟩
  | ifElse word => exact ⟨_, _, rfl, by rw [word]; rfl⟩
  | while_ word => exact ⟨_, _, rfl, by rw [word]; rfl⟩

/-- A statement that holds a guarded one starts with a kind that starts statements. -/
theorem Holds.starts {tree pruned : Statement} {rest : List Token}
    (holds : Holds after guard before tree pruned rest) : StartsWith startsLine before := by
  cases holds with
  | if_ word => exact ⟨_, _, rfl, by rw [word]; rfl⟩
  | firstBranch word => exact ⟨_, _, rfl, by rw [word]; rfl⟩
  | secondBranch word => exact ⟨_, _, rfl, by rw [word]; rfl⟩
  | while_ word => exact ⟨_, _, rfl, by rw [word]; rfl⟩
  | for_ word => exact ⟨_, _, rfl, by rw [word]; rfl⟩
  | func word => exact ⟨_, _, rfl, by rw [word]; rfl⟩
  | block body =>
      obtain ⟨token, inside, same, indent⟩ := body.starts
      exact ⟨token, inside, same, by rw [indent]; rfl⟩

/-- A list that holds a guarded statement starts with a kind that starts statements. -/
theorem ListHolds.starts {trees pruned : List Statement} {rest : List Token}
    (holds : ListHolds after guard before trees pruned rest) : StartsWith startsLine before := by
  cases holds with
  | here guarded => exact guarded.starts
  | inside tree => exact tree.starts
  | @later start _ _ _ _ _ first =>
      have shorter := first.shorter
      obtain ⟨token, rest, same, kind⟩ := first.starts
      cases start with
      | nil => exact absurd shorter (Nat.lt_irrefl _)
      | cons head start =>
          cases same
          exact ⟨_, _, rfl, kind⟩

end Origin

end Grammar

namespace Cursor

section Search

variable {nesting : Nat} {ended : Bool} {token : Token} {used rest : List Token}

/-- Inside a block, the end of a statement does not stop the search. -/
theorem resume_inside (tokens : List Token) :
    resume (nesting + 1) ended tokens = resume (nesting + 1) false tokens := by
  cases tokens with
  | nil => rfl
  | cons token rest => simp [resume]

/-- Inside a block the search passes flat tokens. -/
theorem resume_flats (flat : ∀ token ∈ used, token.kind.isFlat = true) :
    resume (nesting + 1) ended (used ++ rest) = resume (nesting + 1) false rest := by
  induction used generalizing ended with
  | nil => exact resume_inside rest
  | cons token others inductionHypothesis =>
      obtain ⟨first, further⟩ := List.forall_mem_cons.1 flat
      rw [List.cons_append, resume]
      simp only [Nat.succ_ne_zero, false_and, if_false]
      split
      next kind => rw [kind] at first; cases first
      next kind => rw [kind] at first; cases first
      next => exact inductionHypothesis further

theorem resume_flat (flat : token.kind.isFlat = true) :
    resume (nesting + 1) ended (token :: rest) = resume (nesting + 1) false rest :=
  resume_flats (List.forall_mem_singleton.2 flat)

/-- The search enters a block at its indent. -/
theorem resume_indent (indent : token.kind = .indent) :
    resume nesting false (token :: rest) = resume (nesting + 1) false rest := by
  rw [resume, indent]
  simp

end Search

end Cursor

namespace Grammar

open Cursor

section Search

variable {nesting : Nat} {ended : Bool}

/-- The search goes over the header of a statement. -/
theorem resume_header {word then_ : Token} {header inside : List Token} {first : Keyword}
    (starts : word.kind = .keyword first) (inline : Inline header)
    (ends : then_.kind = .keyword .then_) :
    resume (nesting + 1) ended (word :: (header ++ then_ :: inside)) =
      resume (nesting + 1) false inside := by
  rw [resume_flat (by rw [starts]; rfl), resume_flats inline.flat,
    resume_flat (by rw [ends]; rfl)]

mutual

/-- Inside a block, the search goes over whole statements. -/
theorem Derives.resume_eq {tokens rest : List Token} {tree : Statement} :
    Derives tokens tree rest → ∀ nesting ended,
      resume (nesting + 1) ended tokens = resume (nesting + 1) false rest
  | .if_ word condition then_ success _ => by
      intro nesting ended
      rw [resume_header word condition.inline then_]
      exact success.resume_eq nesting false
  | .ifElse word condition then_ success else_ next failure => by
      intro nesting ended
      rw [resume_header word condition.inline then_, success.resume_eq,
        resume_flat (by rw [else_]; rfl), resume_flat (by rw [next]; rfl)]
      exact failure.resume_eq nesting false
  | .while_ word condition then_ body => by
      intro nesting ended
      rw [resume_header word condition.inline then_]
      exact body.resume_eq nesting false
  | .for_ word header then_ body => by
      intro nesting ended
      rw [resume_header word header.inline then_]
      exact body.resume_eq nesting false
  | .func word name colon parameters equal gap body => by
      intro nesting ended
      rw [resume_flat (by rw [word]; rfl), resume_flat (by rw [name]; rfl),
        resume_flat (by rw [colon]; rfl), resume_flats parameters.inline.flat,
        resume_flat (by rw [equal]; rfl), resume_flats gap.inline.flat]
      exact body.resume_eq nesting
  | .let_ word declared => by
      intro nesting ended
      rw [resume_flat (by rw [word]; rfl), resume_flats declared.inline.flat]
  | .return_ word value => by
      intro nesting ended
      rw [resume_flat (by rw [word]; rfl), resume_flats value.inline.flat]
  | .block derivation => by
      intro nesting ended
      rw [resume_inside]
      exact derivation.resume_eq nesting
  | .simple derivation => fun _ _ => resume_flats derivation.inline.flat

/-- A block is skipped whole. -/
theorem Block.resume_eq {tokens rest : List Token} {body : List Statement} :
    Block tokens body rest → ∀ nesting,
      resume (nesting + 1) false tokens = resume (nesting + 1) false rest
  | .closed indent inside dedent => by
      intro nesting
      rw [resume_indent indent, inside.resume_eq, resume, dedent]
      simp
  | .ended indent inside => by
      intro nesting
      rw [resume_indent indent, inside.resume_eq]
      rfl

/-- Inside a block the search passes a list of statements. -/
theorem Sequence.resume_eq {tokens rest : List Token} {trees : List Statement} :
    Sequence tokens trees rest → ∀ nesting,
      resume (nesting + 1) false tokens = resume (nesting + 1) false rest
  | .nil => fun _ => rfl
  | .cons first others => by
      intro nesting
      rw [first.resume_eq]
      exact others.resume_eq nesting

end

/-- A search that stands before a block ends after it. -/
theorem Block.resume_outside {tokens rest : List Token} {body : List Statement}
    (derivation : Block tokens body rest) : resume 0 false tokens = rest := by
  cases derivation with
  | closed indent inside dedent =>
      rw [resume_indent indent, inside.resume_eq, resume, dedent]
      simp
  | ended indent inside =>
      rw [resume_indent indent, inside.resume_eq]
      rfl

/-- The search passes the word that ends a header. -/
theorem resume_then {then_ : Token} {tokens : List Token} (isThen : then_.kind = .keyword .then_) :
    resume 0 false (then_ :: tokens) = resume 0 false tokens := by
  rw [resume, isThen]
  simp [Kind.startsStatement, Kind.isTerminator]

end Search

section Exchange

/-- The first kind depends only on the first kind of what comes last. -/
theorem headKind_append {used rest other : List Token} (same : headKind other = headKind rest) :
    headKind (used ++ other) = headKind (used ++ rest) := by
  cases used with
  | nil => exact same
  | cons token used => rfl

mutual

/-- Before other tokens that start with the same kind, the statement is the same. -/
theorem Derives.exchange {tokens rest : List Token} {tree : Statement} :
    Derives tokens tree rest → rest ≠ [] → ∃ used, tokens = used ++ rest ∧
      ∀ other, headKind other = headKind rest → Derives (used ++ other) tree other
  | @Derives.if_ first then_ condition inside rest _ _ word derivation isThen success alone => by
      intro more
      obtain ⟨used, rfl, further⟩ := success.exchange more
      refine ⟨first :: (condition ++ then_ :: used), by simp, fun other same => ?_⟩
      have whole := Derives.if_ word derivation isThen (further other same) (same ▸ alone)
      simpa using whole
  | @Derives.ifElse first then_ else_ next condition inside others rest _ _ _ word derivation
      isThen success isElse isNext failure => by
      intro more
      obtain ⟨used, same, second⟩ := failure.exchange more
      obtain ⟨before, rfl, start⟩ := success.exchange (List.cons_ne_nil _ _)
      subst same
      refine ⟨first :: (condition ++ then_ :: (before ++ else_ :: next :: used)), by simp,
        fun other same => ?_⟩
      have branch := start (else_ :: next :: (used ++ other)) rfl
      have whole := Derives.ifElse word derivation isThen branch isElse isNext (second other same)
      simpa using whole
  | @Derives.while_ first then_ condition inside rest _ _ word derivation isThen body => by
      intro more
      obtain ⟨used, rfl, further⟩ := body.exchange more
      refine ⟨first :: (condition ++ then_ :: used), by simp, fun other same => ?_⟩
      have whole := Derives.while_ word derivation isThen (further other same)
      simpa using whole
  | @Derives.for_ first then_ clauses inside rest _ _ _ _ word header isThen body => by
      intro more
      obtain ⟨used, rfl, further⟩ := body.exchange more
      refine ⟨first :: (clauses ++ then_ :: used), by simp, fun other same => ?_⟩
      have whole := Derives.for_ word header isThen (further other same)
      simpa using whole
  | @Derives.func first name colon equal listed gap inside rest _ _ word isName isColon parameters
      isEqual broken body => by
      intro more
      obtain ⟨used, rfl, further⟩ := body.exchange more
      refine ⟨first :: name :: colon :: (listed ++ equal :: (gap ++ used)), by simp,
        fun other _ => ?_⟩
      have whole := Derives.func word isName isColon parameters isEqual broken (further other)
      simpa using whole
  | .let_ word declared => fun _ => ⟨_ :: _, rfl, fun _ _ => .let_ word declared⟩
  | .return_ word value => fun _ => ⟨_ :: _, rfl, fun _ _ => .return_ word value⟩
  | .block derivation => by
      intro more
      obtain ⟨used, same, further⟩ := derivation.exchange more
      exact ⟨used, same, fun other _ => .block (further other)⟩
  | .simple derivation => fun _ => ⟨_, rfl, fun _ _ => .simple derivation⟩

/-- A block may be followed by any other tokens. -/
theorem Block.exchange {tokens rest : List Token} {body : List Statement} :
    Block tokens body rest → rest ≠ [] → ∃ used, tokens = used ++ rest ∧
      ∀ other, Block (used ++ other) body other
  | @Block.closed indent dedent inside rest body isIndent derivation isDedent => by
      intro _
      obtain ⟨used, rfl, further⟩ := derivation.exchange (List.cons_ne_nil _ _)
      refine ⟨indent :: (used ++ [dedent]), by simp, fun other => ?_⟩
      have whole := Block.closed isIndent (further (dedent :: other) rfl) isDedent
      simpa using whole
  | .ended _ _ => fun more => absurd rfl more

/-- A list of statements may be followed by other tokens that start alike. -/
theorem Sequence.exchange {tokens rest : List Token} {trees : List Statement} :
    Sequence tokens trees rest → rest ≠ [] → ∃ used, tokens = used ++ rest ∧
      ∀ other, headKind other = headKind rest → Sequence (used ++ other) trees other
  | .nil => fun _ => ⟨[], rfl, fun _ _ => .nil⟩
  | .cons first others => by
      intro more
      obtain ⟨used, same, further⟩ := others.exchange more
      obtain ⟨before, rfl, start⟩ :=
        first.exchange (same ▸ List.append_ne_nil_of_right_ne_nil used more)
      subst same
      refine ⟨before ++ used, by simp, fun other same => ?_⟩
      have whole := Sequence.cons (start (used ++ other) (headKind_append same))
        (further other same)
      simpa using whole

end

end Exchange

end Grammar

end Offside
