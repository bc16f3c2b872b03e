/-
This file proves that syntax errors come in the order of their tokens, and that no token is blamed
twice.
-/

import Offside.Proofs.Report.Numbering

namespace Offside

namespace Cursor

/-- The mistakes stand in order, and all of them before the cursor. -/
structure Fresh (cursor : Cursor) : Prop where
  ordered : cursor.errors.Pairwise fun earlier later => earlier.position < later.position
  behind : ∀ error ∈ cursor.errors, error.position < cursor.position

/-- The mistakes stand in order before the cursor, but the end of a list may be blamed already. -/
structure InOrder (depth : Nat) (cursor : Cursor) : Prop where
  ordered : cursor.errors.Pairwise fun earlier later => earlier.position < later.position
  behind : ∀ error ∈ cursor.errors, error.position < cursor.position ∨
    (cursor.closes depth = true ∧ error.position = cursor.position)

variable {depth : Nat} {cursor after place : Cursor}

/-- Mistakes that are all before the cursor stand in order. -/
theorem Fresh.inOrder (fresh : Fresh cursor) : InOrder depth cursor :=
  ⟨fresh.ordered, fun error member => .inl (fresh.behind error member)⟩

/-- Mistakes stay before a cursor that moves on and notes none. -/
theorem Fresh.clear (fresh : Fresh cursor) (clears : Clears cursor after) : Fresh after where
  ordered := by
    rw [clears.errors_eq]
    exact fresh.ordered
  behind error member := by
    rw [clears.errors_eq] at member
    exact Nat.lt_of_lt_of_le (fresh.behind error member) clears.position_le

/-- Mistakes stay before the cursor when it is marked. -/
theorem Fresh.mark (fresh : Fresh cursor) (depth : Nat) : Fresh (cursor.mark depth) :=
  ⟨fresh.ordered, fresh.behind⟩

namespace InOrder

/-- No mistake stands after the cursor. -/
theorem position_le (inOrder : InOrder depth cursor) :
    ∀ error ∈ cursor.errors, error.position ≤ cursor.position := by
  intro error member
  have := inOrder.behind error member
  omega

/-- At the end of a list, the end itself may be blamed. -/
theorem of_closes (ordered : cursor.errors.Pairwise fun earlier later =>
      earlier.position < later.position)
    (behind : ∀ error ∈ cursor.errors, error.position ≤ cursor.position)
    (ends : cursor.closes depth = true) : InOrder depth cursor :=
  ⟨ordered, fun error member =>
    (Nat.lt_or_eq_of_le (behind error member)).imp_right fun same => ⟨ends, same⟩⟩

/-- The end of all tokens is the end of every list. -/
theorem inside (inOrder : InOrder 0 cursor) : InOrder depth cursor where
  ordered := inOrder.ordered
  behind error member := by
    refine (inOrder.behind error member).imp_right fun ⟨ends, same⟩ => ⟨?_, same⟩
    exact closes_iff.2 ((closes_iff.1 ends).imp_right fun outside => absurd rfl outside.1)

/-- Away from the end of the list, its next token is not blamed yet. -/
theorem fresh (inOrder : InOrder depth cursor) (goesOn : cursor.closes depth = false) :
    Fresh cursor where
  ordered := inOrder.ordered
  behind error member := by
    obtain early | ⟨ends, -⟩ := inOrder.behind error member
    · exact early
    · exact absurd (goesOn.symm.trans ends) Bool.false_ne_true

/-- A cursor that moves on has left every mistake. -/
theorem later (inOrder : InOrder depth cursor) (clears : Clears cursor after)
    (moved : cursor.position < after.position) : Fresh after where
  ordered := by
    rw [clears.errors_eq]
    exact inOrder.ordered
  behind error member := by
    rw [clears.errors_eq] at member
    exact Nat.lt_of_le_of_lt (inOrder.position_le error member) moved

/-- A step before the end leaves every mistake. -/
theorem next (inOrder : InOrder depth cursor) (more : cursor.kind ≠ .eof) : Fresh cursor.next := by
  have passes := passes_next more
  apply inOrder.later passes.clears
  rw [passes.position]
  exact Nat.lt_succ_self _

/-- A cursor that notes no mistake keeps them in order. -/
theorem clear (inOrder : InOrder depth cursor) (clears : Clears cursor after) :
    InOrder depth after := by
  obtain moved | still := Nat.lt_or_eq_of_le clears.position_le
  · exact (inOrder.later clears moved).inOrder
  · obtain ⟨used, rest, position⟩ := clears.passed
    have empty : used = [] := List.eq_nil_of_length_eq_zero (by omega)
    have kind : after.kind = cursor.kind := by
      rw [kind_eq, kind_eq, rest, empty, List.nil_append]
    constructor
    · rw [clears.errors_eq]
      exact inOrder.ordered
    · rw [clears.errors_eq, closes, kind, ← still]
      exact inOrder.behind

end InOrder

/-- The mistake at a place comes after all that are noted before it. -/
theorem Fresh.note {mistake : Mistake} (fresh : Fresh place) (beyond : Clears place cursor) :
    InOrder depth ((cursor.note (place.error mistake)).recover depth) := by
  let noted := cursor.note (place.error mistake)
  have errors : noted.errors = place.errors ++ [place.error mistake] := by
    rw [← beyond.errors_eq]
    rfl
  have ordered : noted.errors.Pairwise fun earlier later => earlier.position < later.position := by
    rw [errors, List.pairwise_append]
    refine ⟨fresh.ordered, List.pairwise_singleton _ _, fun error member last same => ?_⟩
    rw [List.mem_singleton.1 same]
    exact fresh.behind error member
  have reached : ∀ error ∈ noted.errors, error.position ≤ noted.position := by
    intro error member
    apply Nat.le_trans (m := place.position) _ beyond.position_le
    rw [errors, List.mem_append, List.mem_singleton] at member
    obtain member | rfl := member
    · exact Nat.le_of_lt (fresh.behind error member)
    · exact Nat.le_refl _
  -- Recovery stands still only at the end of its list.
  cases ends : noted.closes depth with
  | true =>
      rw [recover, if_pos ends]
      exact .of_closes ordered reached ends
  | false =>
      have moved := (recover_advances noted depth).position_lt (recover_length ends)
      apply Fresh.inOrder
      constructor
      · rw [recover_errors]
        exact ordered
      · intro error member
        rw [recover_errors] at member
        exact Nat.lt_of_le_of_lt (reached error member) moved

mutual

/-- A statement can only leave the end of all tokens blamed. -/
theorem Goes.inOrder {depth : Nat} {cursor after : Cursor} :
    Goes depth cursor after → InOrder 0 cursor → InOrder 0 after
  | .flat walks => fun inOrder => inOrder.clear walks.toPasses.clears
  | .parameter _ => fun inOrder => inOrder.clear ((next_clears _).trans (next_clears _))
  | .block indent inside => fun inOrder => by
      have inner := inside.inOrder (inOrder.next (by simp [indent])).inOrder
      split
      next dedent => exact (inner.next (by simp [dedent])).inOrder
      next open_ =>
        obtain ends | ⟨-, dedent⟩ := closes_iff.1 inside.closes
        · exact .of_closes inner.ordered inner.position_le (closes_iff.2 (.inl ends))
        · exact absurd dedent open_
  | .trans start further => fun inOrder => further.inOrder (start.inOrder inOrder)

/-- A list of statements keeps the mistakes in order. -/
theorem Lists.inOrder {depth : Nat} {cursor last : Cursor} :
    Lists depth cursor last → InOrder depth cursor → InOrder depth last
  | .stop _ => fun inOrder => ⟨inOrder.ordered, inOrder.behind⟩
  | .statement goesOn goes _ others => fun inOrder =>
      others.inOrder (goes.inOrder ((inOrder.fresh goesOn).mark depth).inOrder).inside
  | .mistake goesOn _ turns slips others => fun inOrder => by
      have start := (inOrder.fresh goesOn).mark depth
      apply others.inOrder (Fresh.note _ slips.beyond)
      obtain rfl | moved := slips.apart
      · exact start.clear slips.before
      · exact (turns.inOrder start.inOrder).later slips.before moved

end

theorem mark_errors (cursor : Cursor) (depth : Nat) :
    (cursor.mark depth).errors = cursor.errors := rfl

theorem mark_position (cursor : Cursor) (depth : Nat) :
    (cursor.mark depth).position = cursor.position := rfl

/-- A cursor that moves on without a mistake gains on its mistakes, or it stays where it is. -/
theorem Clears.errors_lt (clears : Clears cursor after) :
    (after.errors.length = cursor.errors.length ∧ after.position = cursor.position) ∨
      after.errors.length + cursor.position < cursor.errors.length + after.position := by
  have reached := clears.position_le
  rw [clears.errors_eq]
  omega

mutual

/-- A statement notes fewer mistakes than it passes tokens, unless it stands still. -/
theorem Goes.errors_lt {depth : Nat} {cursor after : Cursor} :
    Goes depth cursor after →
      (after.errors.length = cursor.errors.length ∧ after.position = cursor.position) ∨
        after.errors.length + cursor.position < cursor.errors.length + after.position
  | .flat walks => walks.toPasses.clears.errors_lt
  | .parameter _ => ((next_clears _).trans (next_clears _)).errors_lt
  | @Goes.block _ _ last indent inside => by
      have inner := inside.errors_le
      have opened := passes_next (show cursor.kind ≠ .eof by simp [indent])
      rw [opened.errors, opened.position, List.length_singleton] at inner
      have closing := (next_clears last).position_le
      split
      · rw [next_errors]
        omega
      · omega
  | .trans start further => by
      have := start.errors_lt
      have := further.errors_lt
      omega

/-- A list notes at most one mistake for each token that it passes. -/
theorem Lists.errors_le {depth : Nat} {cursor last : Cursor} :
    Lists depth cursor last →
      last.errors.length + cursor.position ≤ cursor.errors.length + last.position
  | .stop _ => Nat.le_refl _
  | .statement _ goes _ others => by
      have moved := goes.errors_lt
      have rest := others.errors_le
      rw [mark_errors, mark_position] at moved
      omega
  | @Lists.mistake _ _ _ place middle _ mistake goesOn goes _ _ others => by
      have moved := goes.errors_lt
      have rest := others.errors_le
      have start := (mark_advances cursor depth).trans goes.advances
      have resumed := (note_advances middle (place.error mistake)).trans (recover_advances _ depth)
      have shorter := Parser.recover_shorter (place.error mistake) goesOn start
      have forward := (start.trans resumed).position_lt shorter
      have onward := resumed.position_le
      have noted : ((middle.note (place.error mistake)).recover depth).errors.length =
          middle.errors.length + 1 := by
        rw [recover_errors]
        exact List.length_append
      rw [mark_errors, mark_position] at moved
      omega

end

end Cursor

open Cursor

/-- Each syntax error blames a later token than the one before it, and a mistake that this token can
make. -/
theorem program_errors_ascend (tokens : List Token) :
    let errors := (Program.ofTokens tokens).errors
    errors.Pairwise (fun earlier later => earlier.position < later.position) ∧
      (∀ error ∈ errors, ∃ token, (closed tokens)[error.position]? = some token ∧
        token.line = error.line ∧ error.mistake.Fits token.kind) ∧
      errors.length ≤ tokens.length ∧
      ∀ source, tokens = (scan source).tokens →
        errors.Pairwise fun earlier later => earlier.line ≤ later.line := by
  intro errors
  obtain ⟨listed, -⟩ := Parser.program_ensures tokens
  have start : Fresh (ofTokens tokens) :=
    ⟨List.Pairwise.nil, fun _ absent => absurd absent List.not_mem_nil⟩
  have ordered : errors.Pairwise _ := (listed.inOrder start.inOrder).ordered
  have blamed : ∀ error ∈ errors, ∃ token, (closed tokens)[error.position]? = some token ∧
      token.line = error.line ∧ error.mistake.Fits token.kind := by
    intro error member
    obtain ⟨place, mistake, advances, fits, rfl⟩ := program_blaming tokens error member
    obtain ⟨token, found, kind, line, -⟩ := advances.stands.here
    exact ⟨token, found, line, by rwa [kind]⟩
  refine ⟨ordered, blamed, ?_, fun source scanned => ?_⟩
  · have few : errors.length + 0 ≤ 0 + _ := listed.errors_le
    have last := listed.advances.stands.position
    have part := (script_initial tokens).length_le
    omega
  · subst scanned
    apply ordered.imp_of_mem
    intro first second isFirst isSecond early
    obtain ⟨one, foundOne, lineOne, -⟩ := blamed first isFirst
    obtain ⟨other, foundOther, lineOther, -⟩ := blamed second isSecond
    rw [closed_scan] at foundOne foundOther
    obtain ⟨inside, rfl⟩ := List.getElem?_eq_some_iff.1 foundOne
    obtain ⟨insideToo, rfl⟩ := List.getElem?_eq_some_iff.1 foundOther
    rw [← lineOne, ← lineOther]
    have lines := List.pairwise_map.1 (tokenLines_scan source)
    exact List.pairwise_iff_getElem.1 lines _ _ inside insideToo early

/-- Two mistakes in a block come before the one in the statement around it, and the first of them
blames a token that was already passed. -/
theorem program_errors_ascend_nested :
    let tokens := (scan "if a then\n    1 = 2\n    b c\nelse d\n").tokens
    let errors := (Program.ofTokens tokens).errors
    errors = [⟨.assignmentTarget, 2, 5⟩, ⟨.missing .endOfExpression .name, 3, 9⟩,
        ⟨.missing .thenAfterElse .name, 4, 13⟩] ∧
      errors.Pairwise (fun earlier later => earlier.position < later.position) ∧
      (∃ token, (closed tokens)[5]? = some token ∧ token.line = 2 ∧
        token.kind = .symbol .equal) ∧
      errors.length ≤ tokens.length ∧
      errors.Pairwise fun earlier later => earlier.line ≤ later.line := by
  intro tokens errors
  have found : errors = [⟨.assignmentTarget, 2, 5⟩, ⟨.missing .endOfExpression .name, 3, 9⟩,
      ⟨.missing .thenAfterElse .name, 4, 13⟩] := by
    change (Program.ofTokens (scan "if a then\n    1 = 2\n    b c\nelse d\n").tokens).errors = _
    unfold scan
    rw [Piece.split_eq_splitWithin (Nat.le_refl 35)]
    rfl
  obtain ⟨ordered, blamed, few, lines⟩ := program_errors_ascend tokens
  refine ⟨found, ordered, blamed ⟨.assignmentTarget, 2, 5⟩ ?_, few, lines _ rfl⟩
  change _ ∈ errors
  rw [found]
  exact List.mem_cons_self

end Offside
