/-
This file proves that statements whose blocks are all closed are derived before any later tokens.
-/

import Offside.Proofs.Nesting
import Offside.Proofs.Statement.Continuation

namespace Offside.Grammar

open Cursor

section Marks

variable {depth : Nat}

/-- A flat token leaves the balance of the tokens after it. -/
theorem balanced_of_flat {token : Token} {kind : Kind} {rest : List Token}
    (balanced : Balanced depth (token :: rest)) (same : token.kind = kind)
    (flat : kind.isFlat = true) : Balanced depth rest :=
  (balanced_flat (Kind.isBlockMark_of_isFlat (same ▸ flat))).1 balanced

/-- The header of a statement marks no block. -/
theorem balanced_of_header {word then_ : Token} {header inside : List Token}
    {first : Keyword} (balanced : Balanced depth (word :: (header ++ then_ :: inside)))
    (starts : word.kind = .keyword first) (inline : Inline header)
    (ends : then_.kind = .keyword .then_) : Balanced depth inside :=
  balanced_of_flat ((balanced_flats inline.flat).1 (balanced_of_flat balanced starts rfl)) ends rfl

end Marks

theorem headKind_append_ne {kind : Kind} {rest later : List Token} (first : headKind rest ≠ kind)
    (second : headKind later ≠ kind) : headKind (rest ++ later) ≠ kind := by
  cases rest with
  | nil => exact second
  | cons token rest => exact first

mutual

/-- The balance goes on after the statement, and so does the derivation. -/
theorem Derives.sequel {tokens rest later : List Token} {tree : Statement}
    (bare : headKind later ≠ .keyword .else_) :
    Derives tokens tree rest → ∀ depth, Balanced depth tokens →
      Balanced depth rest ∧ Derives (tokens ++ later) tree (rest ++ later)
  | .if_ word condition then_ success alone => by
      intro depth balanced
      have inside := balanced_of_header balanced word condition.inline then_
      obtain ⟨after, derivation⟩ := success.sequel bare depth inside
      refine ⟨after, ?_⟩
      simp only [List.cons_append, List.append_assoc]
      exact .if_ word condition then_ derivation (headKind_append_ne alone bare)
  | .ifElse word condition then_ success else_ next failure => by
      intro depth balanced
      have inside := balanced_of_header balanced word condition.inline then_
      obtain ⟨middle, derivation⟩ := success.sequel bare depth inside
      have others := balanced_of_flat (balanced_of_flat middle else_ rfl) next rfl
      obtain ⟨after, other⟩ := failure.sequel bare depth others
      refine ⟨after, ?_⟩
      simp only [List.cons_append, List.append_assoc]
      exact .ifElse word condition then_ derivation else_ next other
  | .while_ word condition then_ body => by
      intro depth balanced
      have inside := balanced_of_header balanced word condition.inline then_
      obtain ⟨after, derivation⟩ := body.sequel bare depth inside
      refine ⟨after, ?_⟩
      simp only [List.cons_append, List.append_assoc]
      exact .while_ word condition then_ derivation
  | .for_ word header then_ body => by
      intro depth balanced
      have inside := balanced_of_header balanced word header.inline then_
      obtain ⟨after, derivation⟩ := body.sequel bare depth inside
      refine ⟨after, ?_⟩
      simp only [List.cons_append, List.append_assoc]
      exact .for_ word header then_ derivation
  | .func word name colon parameters equal gap body => by
      intro depth balanced
      have begun := balanced_of_flat (balanced_of_flat balanced word rfl) name rfl
      have named := balanced_of_flat begun colon rfl
      have typed := balanced_of_flat ((balanced_flats parameters.inline.flat).1 named) equal rfl
      obtain ⟨after, derivation⟩ :=
        body.sequel bare depth ((balanced_flats gap.inline.flat).1 typed)
      refine ⟨after, ?_⟩
      simp only [List.cons_append, List.append_assoc]
      exact .func word name colon parameters equal gap derivation
  | .let_ word declared => by
      intro depth balanced
      refine ⟨(balanced_flats declared.inline.flat).1 (balanced_of_flat balanced word rfl), ?_⟩
      simp only [List.cons_append, List.append_assoc]
      exact .let_ word declared
  | .return_ word value => by
      intro depth balanced
      refine ⟨(balanced_flats value.inline.flat).1 (balanced_of_flat balanced word rfl), ?_⟩
      simp only [List.cons_append, List.append_assoc]
      exact .return_ word value
  | .block derivation => by
      intro depth balanced
      obtain ⟨after, further⟩ := derivation.sequel bare depth balanced
      exact ⟨after, .block further⟩
  | .simple derivation => by
      intro depth balanced
      refine ⟨(balanced_flats derivation.inline.flat).1 balanced, ?_⟩
      rw [List.append_assoc]
      exact .simple derivation

/-- A block that lacks its dedent is not balanced. -/
theorem Block.sequel {tokens rest later : List Token} {body : List Statement}
    (bare : headKind later ≠ .keyword .else_) :
    Block tokens body rest → ∀ depth, Balanced depth tokens →
      Balanced depth rest ∧ Block (tokens ++ later) body (rest ++ later)
  | .closed indent inside dedent => by
      intro depth balanced
      obtain ⟨middle, derivation⟩ :=
        inside.sequel bare (depth + 1) ((balanced_indent indent).1 balanced)
      obtain ⟨-, after⟩ := (balanced_dedent dedent).1 middle
      exact ⟨after, .closed indent derivation dedent⟩
  | .ended indent inside => by
      intro depth balanced
      obtain ⟨middle, -⟩ := inside.sequel bare (depth + 1) ((balanced_indent indent).1 balanced)
      cases middle

/-- A list of statements may be followed by later tokens that do not start with an else. -/
theorem Sequence.sequel {tokens rest later : List Token} {trees : List Statement}
    (bare : headKind later ≠ .keyword .else_) :
    Sequence tokens trees rest → ∀ depth, Balanced depth tokens →
      Balanced depth rest ∧ Sequence (tokens ++ later) trees (rest ++ later)
  | .nil => fun _ balanced => ⟨balanced, .nil⟩
  | .cons first others => by
      intro depth balanced
      obtain ⟨middle, derivation⟩ := first.sequel bare depth balanced
      obtain ⟨after, further⟩ := others.sequel bare depth middle
      exact ⟨after, .cons derivation further⟩

end

/-- Lists of statements in a row are one list. -/
theorem Sequence.append {first second third : List Token} {trees others : List Statement}
    (start : Sequence first trees second) (further : Sequence second others third) :
    Sequence first (trees ++ others) third := by
  induction trees generalizing first with
  | nil =>
      cases start
      exact further
  | cons tree trees inductionHypothesis =>
      cases start with
      | cons derivation rest => exact .cons derivation (inductionHypothesis rest)

end Offside.Grammar
