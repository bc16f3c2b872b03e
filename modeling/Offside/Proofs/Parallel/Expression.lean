/-
This file proves that expressions are read alike from two lists of tokens side by side.
-/

import Offside.Proofs.Parallel.Rules

namespace Offside

namespace Grammar

theorem unended_of_connective {level : Level} {kind : Kind} {connective : Connective}
    (sign : level.connective? kind = some connective) : kind.endsLine = false := by
  unfold Level.connective? at sign
  split at sign <;> cases sign <;> rfl

mutual

/-- No token of an expression ends a line. -/
theorem Assignment.unended {tokens : List Token} {tree : Expression} :
    Assignment tokens tree → ∀ token ∈ tokens, token.kind.endsLine = false
  | .assign name equal value => by
      simpa [name, equal, Kind.endsLine] using value.unended
  | .increment name sign => by simp [name, sign, Kind.endsLine]
  | .decrement name sign => by simp [name, sign, Kind.endsLine]
  | .chain derivation => derivation.unended

/-- No token of a chain ends a line. -/
theorem Chain.unended {levels : List Level} {tokens : List Token} {tree : Expression} :
    Chain levels tokens tree → ∀ token ∈ tokens, token.kind.endsLine = false
  | .operand derivation => derivation.unended
  | .single derivation => derivation.unended
  | .join left sign right => List.forall_mem_append.2
      ⟨left.unended, List.forall_mem_cons.2 ⟨unended_of_connective sign, right.unended⟩⟩

/-- No token of an operand ends a line. -/
theorem Unary.unended {tokens : List Token} {tree : Expression} :
    Unary tokens tree → ∀ token ∈ tokens, token.kind.endsLine = false
  | .operator sign operand => by
      refine List.forall_mem_cons.2 ⟨?_, operand.unended⟩
      unfold UnaryOperator.ofKind? at sign
      split at sign <;> simp_all [Kind.endsLine]
  | .call derivation => derivation.unended

/-- No token of a call ends a line. -/
theorem Call.unended {tokens : List Token} {tree : Expression} :
    Call tokens tree → ∀ token ∈ tokens, token.kind.endsLine = false
  | .primary derivation => derivation.unended
  | .empty callee opening closing => List.forall_mem_append.2
      ⟨callee.unended, by simp [opening, closing, Kind.endsLine]⟩
  | .apply callee opening inside closing => List.forall_mem_append.2
      ⟨callee.unended, List.forall_mem_cons.2 ⟨by rw [opening]; rfl,
        List.forall_mem_append.2 ⟨inside.unended, by simp [closing, Kind.endsLine]⟩⟩⟩

/-- No token of a list of arguments ends a line. -/
theorem Arguments.unended {tokens : List Token} {values : List Expression} :
    Arguments tokens values → ∀ token ∈ tokens, token.kind.endsLine = false
  | .last derivation => derivation.unended
  | .more derivation comma others => List.forall_mem_append.2
      ⟨derivation.unended, List.forall_mem_cons.2 ⟨by rw [comma]; rfl, others.unended⟩⟩

/-- No token of a primary ends a line. -/
theorem Primary.unended {tokens : List Token} {tree : Expression} :
    Primary tokens tree → ∀ token ∈ tokens, token.kind.endsLine = false
  | .literal same => by
      unfold Constant.ofToken? at same
      split at same <;> simp_all [Kind.endsLine]
  | .reference name => by simp [name, Kind.endsLine]
  | .group opening inside closing => List.forall_mem_cons.2 ⟨by rw [opening]; rfl,
      List.forall_mem_append.2 ⟨inside.unended, by simp [closing, Kind.endsLine]⟩⟩

end

end Grammar

namespace Parser

open Cursor Grammar

/-- The parser does the same on both lists, up to the end of the first one. -/
def Steady {α : Type} (later : List Token) (parser : Parser α) : Prop :=
  ∀ first second : Cursor, Parallel later false parser parser first second

variable {later : List Token} {inner operand : Parser Expression} {first second : Cursor}

/-- Primaries are read alike from both lists. -/
theorem primary_steady (steady : Steady later inner) : Steady later (primary inner) := by
  intro first second
  unfold primary
  refine Parallel.here (fun place agrees => ?_) nofun
  have line {kind : Kind} (same : first.kind = kind) (written : kind.isLayout = false) :
      place.token.line = first.token.line := agrees.line same written
  rw [agrees.kind]
  split
  next kind =>
    rw [line kind rfl]
    exact .skip nofun (.pure _)
  next kind =>
    rw [line kind rfl]
    exact .skip nofun (.pure _)
  next kind =>
    rw [line kind rfl]
    exact .skip nofun (.pure _)
  next kind =>
    rw [line kind rfl, agrees.token.literal]
    exact .skip nofun (.pure _)
  next kind =>
    rw [line kind rfl, agrees.token.literal]
    exact .skip nofun (.pure _)
  next kind =>
    rw [agrees.token.name kind]
    exact .skip nofun (.pure _)
  next kind =>
    refine .skip nofun ?_
    refine (steady _ _).bind (fun tree after last _ => ?_) nofun
    exact .expect (by simp) fun _ _ _ => .pure _
  next => exact .blame _

/-- Arguments are read alike from both lists. -/
theorem arguments_steady (steady : Steady later inner) (budget : Nat) :
    Steady later (arguments inner budget) := by
  induction budget with
  | zero => exact fun first second => (steady first second).bind (fun _ _ _ _ => .pure _) nofun
  | succ budget inductionHypothesis =>
      intro first second
      refine (steady first second).bind (fun value after last _ => ?_) nofun
      refine .accept (by simp) (fun _ => ?_) (fun _ => .pure _) nofun
      exact (inductionHypothesis _ _).bind (fun _ _ _ _ => .pure _) nofun

/-- Calls are read alike from both lists. -/
theorem calls_steady (steady : Steady later inner) (budget : Nat) (callee : Expression) :
    Steady later (calls inner budget callee) := by
  induction budget generalizing callee with
  | zero => exact fun first second => .pure _
  | succ budget inductionHypothesis =>
      intro first second
      unfold calls
      refine Parallel.here (fun place agrees => ?_) (by simp)
      rw [agrees.kind]
      split
      · next opens =>
          rw [agrees.line opens rfl]
          have again (values : List Expression) (middle last : Cursor) :
              Parallel later false
                (expect (.symbol .rightParen) .parenAfterArguments >>= fun _ =>
                  calls inner budget (.call callee values first.token.line))
                (expect (.symbol .rightParen) .parenAfterArguments >>= fun _ =>
                  calls inner budget (.call callee values first.token.line)) middle last :=
            .expect (by simp) fun _ _ _ => inductionHypothesis _ _ _
          refine .skip (by simp) ?_
          refine .peek ?_ (by simp)
          dsimp only
          split
          · exact again [] _ _
          · exact (arguments_steady steady budget _ _).bind (fun _ _ _ _ => again _ _ _)
              (by simp)
      · exact .pure _

/-- Operands are read alike from both lists. -/
theorem unary_steady (steady : Steady later inner) (budget : Nat) :
    Steady later (unary inner budget) := by
  induction budget with
  | zero => exact fun first second => .peek (.blame _) (by simp)
  | succ budget inductionHypothesis =>
      intro first second
      unfold unary
      refine Parallel.here (fun place agrees => ?_) (by simp)
      rw [agrees.kind]
      split
      · next operator sign =>
          have written : first.kind.isLayout = false := by
            cases kind : first.kind <;> simp_all [UnaryOperator.ofKind?, Kind.isLayout]
          rw [agrees.line rfl written]
          refine .skip (by simp) ?_
          exact (inductionHypothesis _ _).bind (fun _ _ _ _ => .pure _) (by simp)
      · refine (primary_steady steady _ _).bind (fun callee _ _ _ => ?_) (by simp)
        exact calls_steady steady (budget + 1) callee _ _

/-- Chains are read alike from both lists when their operands are. -/
theorem chain_steady {level : Level} (steady : Steady later operand) (budget : Nat)
    (left : Expression) : Steady later (chain level operand budget left) := by
  induction budget generalizing left with
  | zero => exact fun first second => .pure _
  | succ budget inductionHypothesis =>
      intro first second
      unfold chain
      refine Parallel.here (fun place agrees => ?_) (by simp)
      rw [agrees.kind]
      split
      · next connective sign =>
          have written : first.kind.isLayout = false := by
            unfold Level.connective? at sign
            split at sign <;> simp_all [Kind.isLayout]
          rw [agrees.line rfl written]
          refine .skip (by simp) ?_
          exact (steady _ _).bind (fun _ _ _ _ => inductionHypothesis _ _ _) (by simp)
      · exact .pure _

/-- Towers are read alike from both lists when their operands are. -/
theorem tower_steady (steady : Steady later operand) (budget : Nat) (levels : List Level) :
    Steady later (tower operand budget levels) := by
  induction levels with
  | nil => exact steady
  | cons level tighter inductionHypothesis =>
      intro first second
      refine (inductionHypothesis first second).bind (fun left _ _ _ => ?_) nofun
      exact chain_steady inductionHypothesis budget left _ _

/-- The sign of a step ends no line. -/
theorem step_parallel {place : Cursor} (agrees : first.Agrees place) (target : Expression)
    (operator : BinaryOperator) (mistake : Mistake) {symbol : Symbol}
    (sign : first.kind = .symbol symbol) (unended : symbol ≠ .semicolon) :
    Parallel later false (skip >>= fun _ => step first target operator mistake)
      (skip >>= fun _ => step place target operator mistake) first second := by
  unfold step
  split
  next name =>
    rw [agrees.line sign rfl]
    exact .skip nofun (.pure _)
  next =>
    have more : first.kind ≠ .eof := by rw [sign]; simp
    have skipped : Parallel later false skip skip first second := .skip nofun (.pure ())
    refine .blameBehind agrees mistake skipped ?_
    intro value after run lined
    cases run
    apply lined.rest_ne_nil (passes_next more) (by simp)
    intro token member
    have kind : token.kind = .symbol symbol := by
      rw [List.mem_singleton.1 member]
      exact sign
    rw [kind]
    cases symbol <;> first | rfl | exact absurd rfl unended

/-- Assignments are read alike from both lists. -/
theorem assignment_steady (steady : Steady later inner) (reads : Reads Assignment inner)
    (budget : Nat) : Steady later (assignment inner budget) := by
  intro first second
  unfold assignment
  have targets := tower_steady (unary_steady steady budget) budget Level.all
  refine (targets first second).bind (fun target middle last _ => ?_) nofun
  refine Parallel.here (fun place agrees => ?_) nofun
  rw [agrees.kind]
  split
  next equal =>
    refine .skip nofun ?_
    split
    · exact (steady _ _).bind (fun _ _ _ _ => .pure _) nofun
    · refine .blameBehind agrees .assignmentTarget (steady _ _) ?_
      intro value after run lined
      obtain ⟨used, walks, derivation⟩ := (reads _).ok run
      exact lined.rest_ne_nil walks.toPasses (List.ne_nil_of_length_pos derivation.starts.nonempty)
        derivation.unended
  next sign => exact step_parallel agrees target .add .incrementTarget sign (by simp)
  next sign => exact step_parallel agrees target .subtract .decrementTarget sign (by simp)
  next => exact .pure _

/-- Expressions of every budget are read alike from both lists. -/
theorem expressionWithin_steady (budget : Nat) : Steady later (expressionWithin budget) := by
  induction budget with
  | zero => exact fun first second => .peek (.blame _) nofun
  | succ budget inductionHypothesis =>
      exact assignment_steady inductionHypothesis (expressionWithin_reads budget) (budget + 1)

/-- The budget is no part of the result. -/
theorem expression_steady : Steady later expression := by
  intro first second
  have both : Parallel later false _ _ first second :=
    expressionWithin_steady (first.rest.length + second.rest.length) first second
  exact both.congr (expressionWithin_eq (by omega)).symm (expressionWithin_eq (by omega)).symm

end Parser

end Offside
