/-
This file proves that the expression parser reads only what the grammar derives.
-/

import Offside.Proofs.Layout
import Offside.Proofs.Run
import Offside.Proofs.Expression.Grammar

namespace Offside

namespace Cursor

/-- The cursor walks over flat tokens only. -/
structure Walks (cursor : Cursor) (used : List Token) (after : Cursor) : Prop
    extends Passes cursor used after where
  flat : ∀ token ∈ used, token.kind.isFlat = true

namespace Walks

variable {first second third : Cursor} {used others : List Token}

theorem refl (cursor : Cursor) : Walks cursor [] cursor where
  toPasses := Passes.refl cursor
  flat := by simp

/-- Two walks in a row are one walk over the tokens of both. -/
theorem trans (start : Walks first used second) (further : Walks second others third) :
    Walks first (used ++ others) third where
  toPasses := start.toPasses.trans further.toPasses
  flat token member := by
    obtain member | member := List.mem_append.1 member
    · exact start.flat token member
    · exact further.flat token member

/-- A step over a flat token is a walk. -/
theorem next {cursor : Cursor} (flat : cursor.kind.isFlat = true) :
    Walks cursor [cursor.token] cursor.next where
  toPasses := passes_next fun eof => by simp [eof, Kind.isFlat] at flat
  flat token member := by
    rw [List.mem_singleton.1 member]
    exact flat

/-- One token and then more. -/
theorem step {cursor : Cursor} (flat : cursor.kind.isFlat = true)
    (further : Walks cursor.next others third) : Walks cursor (cursor.token :: others) third :=
  (next flat).trans further

end Walks

end Cursor

/-- The mistake can be blamed on a token of this kind: on the one that was found, or on the operator
that has no name before it. -/
def Mistake.Fits : Mistake → Kind → Prop
  | .noExpression found, kind => found = kind
  | .missing _ found, kind => found = kind
  | .parameter found, kind => found = kind
  | .assignmentTarget, kind => kind = .symbol .equal
  | .incrementTarget, kind => kind = .symbol .plusPlus
  | .decrementTarget, kind => kind = .symbol .minusMinus

namespace Cursor

/-- The error blames a token between the two cursors, with flat tokens around it. -/
def Blames (cursor : Cursor) (error : SyntaxError) (after : Cursor) : Prop :=
  ∃ before place between mistake, Walks cursor before place ∧ Walks place between after ∧
    mistake.Fits place.kind ∧ error = place.error mistake

/-- A mistake at the end of a walk blames the token there. -/
theorem Walks.blames {cursor place : Cursor} {used : List Token} {mistake : Mistake}
    (walks : Walks cursor used place) (fits : mistake.Fits place.kind) :
    Blames cursor (place.error mistake) place :=
  ⟨used, place, [], mistake, walks, Walks.refl place, fits, rfl⟩

/-- A mistake that fits may be blamed on the token at hand. -/
theorem Blames.here {cursor : Cursor} {mistake : Mistake} (fits : mistake.Fits cursor.kind) :
    Blames cursor (cursor.error mistake) cursor := (Walks.refl cursor).blames fits

/-- A blame behind a walk is a blame from its start. -/
theorem Blames.after {first second third : Cursor} {used : List Token} {error : SyntaxError}
    (start : Walks first used second) (blames : Blames second error third) :
    Blames first error third := by
  obtain ⟨before, place, between, mistake, further, rest, same⟩ := blames
  exact ⟨used ++ before, place, between, mistake, start.trans further, rest, same⟩

/-- A blame behind a flat token is a blame from that token. -/
theorem Blames.next {cursor after : Cursor} {error : SyntaxError}
    (flat : cursor.kind.isFlat = true) (blames : Blames cursor.next error after) :
    Blames cursor error after := blames.after (Walks.next flat)

end Cursor

namespace Parser

open Cursor Grammar

/-- The parser reads what the grammar derives, or blames a token. -/
def Reads {α : Type} (derives : List Token → α → Prop) (parser : Parser α) : Prop :=
  ∀ cursor, Ensures parser cursor
    (fun value after => ∃ used, Walks cursor used after ∧ derives used value) (Blames cursor)

theorem flat_of_symbol {cursor : Cursor} {symbol : Symbol} (kind : cursor.kind = .symbol symbol) :
    cursor.kind.isFlat = true := by rw [kind]; rfl

/-- The parser of a primary reads primaries. -/
theorem primary_reads {inner : Parser Expression} (reads : Reads Assignment inner) :
    Reads Primary (primary inner) := by
  intro cursor
  unfold primary
  simp only [ensures_bind, ensures_here]
  have literal {value : Constant} (same : Constant.ofToken? cursor.token = some value)
      (flat : cursor.kind.isFlat = true) :
      ∃ used, Walks cursor used cursor.next ∧ Primary used (.constant value cursor.token.line) :=
    ⟨[cursor.token], Walks.next flat, .literal same⟩
  have same : cursor.token.kind = cursor.kind := rfl
  split
  next kind => exact literal (by rw [Constant.ofToken?, same, kind]) (by rw [kind]; rfl)
  next kind => exact literal (by rw [Constant.ofToken?, same, kind]) (by rw [kind]; rfl)
  next kind => exact literal (by rw [Constant.ofToken?, same, kind]) (by rw [kind]; rfl)
  next kind => exact literal (by rw [Constant.ofToken?, same, kind]) (by rw [kind]; rfl)
  next kind => exact literal (by rw [Constant.ofToken?, same, kind]) (by rw [kind]; rfl)
  next kind =>
    exact ⟨[cursor.token], Walks.next (by rw [kind]; rfl), .reference kind⟩
  next kind =>
    have opening := flat_of_symbol kind
    simp only [ensures_bind, ensures_skip, ensures_expect, ensures_pure]
    apply (reads cursor.next).mono
    · rintro tree after ⟨inside, walks, derivation⟩
      refine ⟨fun closes => ?_, fun _ => (walks.step opening).blames rfl⟩
      refine ⟨cursor.token :: (inside ++ [after.token]), ?_, .group kind derivation closes⟩
      exact (walks.trans (Walks.next (flat_of_symbol closes))).step opening
    · intro error after blames
      exact blames.next opening
  next => exact Blames.here rfl

/-- The parser of arguments reads lists of arguments. -/
theorem arguments_reads {inner : Parser Expression} (reads : Reads Assignment inner)
    (budget : Nat) : Reads Arguments (arguments inner budget) := by
  induction budget with
  | zero =>
      intro cursor
      simp only [arguments, ensures_bind, ensures_pure]
      apply (reads cursor).mono
      · rintro value after ⟨used, walks, derivation⟩
        exact ⟨used, walks, .last derivation⟩
      · exact fun _ _ blames => blames
  | succ budget inductionHypothesis =>
      intro cursor
      simp only [arguments, ensures_bind, ensures_accept]
      apply (reads cursor).mono
      · rintro value middle ⟨used, walks, derivation⟩
        refine ⟨fun comma => ?_, fun _ => ⟨used, walks, .last derivation⟩⟩
        have separator := walks.trans (Walks.next (flat_of_symbol comma))
        simp only [if_true, ensures_bind, ensures_pure]
        apply (inductionHypothesis middle.next).mono
        · rintro values after ⟨others, further, rest⟩
          refine ⟨used ++ middle.token :: others, ?_, .more derivation comma rest⟩
          exact walks.trans (further.step (flat_of_symbol comma))
        · exact fun error after blames => blames.after separator
      · exact fun _ _ blames => blames

/-- Every round of the loop adds one call to what was read before. -/
theorem calls_reads {inner : Parser Expression} (reads : Reads Assignment inner) (budget : Nat)
    {first : List Token} {callee : Expression} (derived : Call first callee) :
    Reads (fun used => Call (first ++ used)) (calls inner budget callee) := by
  induction budget generalizing first callee with
  | zero =>
      intro cursor
      exact ⟨[], Walks.refl cursor, by simpa using derived⟩
  | succ budget inductionHypothesis =>
      intro cursor
      simp only [calls, ensures_bind, ensures_here, ensures_ite, ensures_skip, ensures_peek,
        ensures_pure, ensures_expect]
      refine ⟨fun opens => ?_, fun _ => ⟨[], Walks.refl cursor, by rwa [List.append_nil]⟩⟩
      have opening := flat_of_symbol opens
      refine ⟨fun closes => ⟨fun _ => ?_, fun differs => absurd closes differs⟩, fun _ => ?_⟩
      · have both : Walks cursor [cursor.token, cursor.next.token] cursor.next.next :=
          (Walks.next (flat_of_symbol closes)).step opening
        apply (inductionHypothesis (.empty derived opens closes) cursor.next.next).mono
        · rintro tree after ⟨others, further, derivation⟩
          refine ⟨_, both.trans further, ?_⟩
          rwa [List.append_assoc] at derivation
        · exact fun error after blames => blames.after both
      · apply (arguments_reads reads budget cursor.next).mono
        · rintro values middle ⟨inside, walks, applied⟩
          refine ⟨fun closes => ?_, fun _ => (walks.step opening).blames rfl⟩
          have all : Walks cursor (cursor.token :: (inside ++ [middle.token])) middle.next :=
            (walks.trans (Walks.next (flat_of_symbol closes))).step opening
          apply (inductionHypothesis (.apply derived opens applied closes) middle.next).mono
          · rintro tree after ⟨others, further, derivation⟩
            refine ⟨_, all.trans further, ?_⟩
            rwa [List.append_assoc] at derivation
          · exact fun error after blames => blames.after all
        · exact fun error after blames => blames.next opening

/-- The parser of an operand reads operands with their signs and calls. -/
theorem unary_reads {inner : Parser Expression} (reads : Reads Assignment inner) (budget : Nat) :
    Reads Unary (unary inner budget) := by
  induction budget with
  | zero => exact fun cursor => Blames.here rfl
  | succ budget inductionHypothesis =>
      intro cursor
      simp only [unary, ensures_bind, ensures_here]
      split
      next operator sign =>
        have flat : cursor.kind.isFlat = true := by
          cases kind : cursor.kind <;> simp_all [UnaryOperator.ofKind?, Kind.isFlat]
        simp only [ensures_bind, ensures_skip, ensures_pure]
        apply (inductionHypothesis cursor.next).mono
        · rintro tree after ⟨used, walks, derivation⟩
          exact ⟨_, walks.step flat, .operator sign derivation⟩
        · exact fun error after blames => blames.next flat
      next =>
        simp only [ensures_bind]
        apply (primary_reads reads cursor).mono
        · rintro callee middle ⟨first, walks, derivation⟩
          apply (calls_reads reads (budget + 1) (.primary derivation) middle).mono
          · rintro tree after ⟨others, further, called⟩
            exact ⟨_, walks.trans further, .call called⟩
          · exact fun error after blames => blames.after walks
        · exact fun _ _ blames => blames

theorem flat_of_connective {level : Level} {kind : Kind} {connective : Connective}
    (sign : level.connective? kind = some connective) : kind.isFlat = true := by
  unfold Level.connective? at sign
  split at sign <;> cases sign <;> rfl

/-- Every round of the loop adds one operand to what was read before. -/
theorem chain_reads {level : Level} {levels : List Level} {operand : Parser Expression}
    (reads : Reads (Chain levels) operand) (budget : Nat) {first : List Token} {left : Expression}
    (derived : Chain (level :: levels) first left) :
    Reads (fun used => Chain (level :: levels) (first ++ used))
      (chain level operand budget left) := by
  induction budget generalizing first left with
  | zero =>
      intro cursor
      exact ⟨[], Walks.refl cursor, by simpa using derived⟩
  | succ budget inductionHypothesis =>
      intro cursor
      simp only [chain, ensures_bind, ensures_here]
      split
      next connective sign =>
        have flat := flat_of_connective sign
        simp only [ensures_bind, ensures_skip]
        apply (reads cursor.next).mono
        · rintro right middle ⟨second, walks, derivation⟩
          have round := walks.step flat
          apply (inductionHypothesis (.join derived sign derivation) middle).mono
          · rintro tree after ⟨others, further, longer⟩
            refine ⟨_, round.trans further, ?_⟩
            rwa [List.append_assoc] at longer
          · exact fun error after blames => blames.after round
        · exact fun error after blames => blames.next flat
      next => exact ⟨[], Walks.refl cursor, by simpa using derived⟩

/-- The tower reads the chains of its levels. -/
theorem tower_reads {operand : Parser Expression} (reads : Reads Unary operand) (budget : Nat)
    (levels : List Level) : Reads (Chain levels) (tower operand budget levels) := by
  induction levels with
  | nil =>
      intro cursor
      apply (reads cursor).mono
      · rintro tree after ⟨used, walks, derivation⟩
        exact ⟨used, walks, .operand derivation⟩
      · exact fun _ _ blames => blames
  | cons level tighter inductionHypothesis =>
      intro cursor
      simp only [tower, ensures_bind]
      apply (inductionHypothesis cursor).mono
      · rintro left middle ⟨first, walks, derivation⟩
        apply (chain_reads inductionHypothesis budget (.single derivation) middle).mono
        · rintro tree after ⟨others, further, longer⟩
          exact ⟨_, walks.trans further, longer⟩
        · exact fun error after blames => blames.after walks
      · exact fun _ _ blames => blames

/-- A step reads the sign that stands at the place. -/
theorem step_ensures {start place : Cursor} {first : List Token} {target : Expression}
    {operator : BinaryOperator} {mistake : Mistake} (walks : Walks start first place)
    (derived : Chain Level.all first target) (flat : place.kind.isFlat = true)
    (fits : mistake.Fits place.kind)
    (derive : ∀ name, name.kind = .name →
      Assignment [name, place.token] (.stepped operator name place.token)) :
    Ensures (step place target operator mistake) place.next
      (fun tree after => ∃ used, Walks start used after ∧ Assignment used tree)
      (Blames start) := by
  unfold step
  split
  next name =>
    obtain ⟨token, rfl, kind, rfl⟩ := derived.reference
    exact ⟨_, walks.trans (Walks.next flat), derive token kind⟩
  next => exact ⟨first, place, [place.token], mistake, walks, Walks.next flat, fits, rfl⟩

/-- The parser of an assignment reads assignments. -/
theorem assignment_reads {inner : Parser Expression} (reads : Reads Assignment inner)
    (budget : Nat) : Reads Assignment (assignment inner budget) := by
  intro cursor
  simp only [assignment, ensures_bind, ensures_here]
  apply (tower_reads (unary_reads reads budget) budget Level.all cursor).mono
  · rintro target place ⟨first, walks, derived⟩
    split
    next kind =>
      have flat := flat_of_symbol kind
      simp only [ensures_bind, ensures_skip]
      apply (reads place.next).mono
      · rintro value after ⟨second, further, derivation⟩
        split
        next name =>
          obtain ⟨token, rfl, isName, rfl⟩ := derived.reference
          exact ⟨_, walks.trans (further.step flat), .assign isName kind derivation⟩
        next =>
          exact ⟨first, place, _, .assignmentTarget, walks, further.step flat, kind, rfl⟩
      · exact fun error after blames => (blames.next flat).after walks
    next kind =>
      simp only [ensures_bind, ensures_skip]
      exact step_ensures walks derived (flat_of_symbol kind) kind fun name isName =>
        .increment isName kind
    next kind =>
      simp only [ensures_bind, ensures_skip]
      exact step_ensures walks derived (flat_of_symbol kind) kind fun name isName =>
        .decrement isName kind
    next => exact ⟨first, walks, .chain derived⟩
  · exact fun _ _ blames => blames

/-- Every budget reads expressions. -/
theorem expressionWithin_reads (budget : Nat) : Reads Assignment (expressionWithin budget) := by
  induction budget with
  | zero => exact fun cursor => Blames.here rfl
  | succ budget inductionHypothesis => exact assignment_reads inductionHypothesis (budget + 1)

/-- Every expression that is read is derived by the tokens that are passed. -/
theorem expression_reads : Reads Assignment expression :=
  fun cursor => expressionWithin_reads cursor.rest.length cursor

end Parser

end Offside
