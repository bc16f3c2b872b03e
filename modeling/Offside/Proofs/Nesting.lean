/-
This file proves that the parser's blocks are those of the layout, also after mistakes.
-/

import Offside.Proofs.Statement.Sound

namespace Offside

/-- Flat tokens leave the balance as it is. -/
theorem balanced_flats {depth : Nat} {used rest : List Token}
    (flat : ∀ token ∈ used, token.kind.isFlat = true) :
    Balanced depth (used ++ rest) ↔ Balanced depth rest := by
  induction used with
  | nil => rfl
  | cons token others inductionHypothesis =>
      have first := Kind.isBlockMark_of_isFlat (flat token List.mem_cons_self)
      rw [List.cons_append, balanced_flat first]
      exact inductionHypothesis fun other member => flat other (List.mem_cons_of_mem _ member)

/-- Before an end, tokens are balanced by themselves. -/
theorem Balanced.script {depth : Nat} {tokens : List Token} {last : Token}
    (balanced : Balanced depth (tokens ++ [last])) (ends : last.kind = .eof) :
    Balanced depth tokens := by
  induction tokens generalizing depth with
  | nil => exact (balanced_flat (by rw [ends]; rfl)).1 balanced
  | cons token rest inductionHypothesis =>
      rw [List.cons_append] at balanced
      obtain opens | closes | flat := token.kind.blockMark_cases
      · exact (balanced_indent opens).2 (inductionHypothesis ((balanced_indent opens).1 balanced))
      · obtain ⟨positive, inner⟩ := (balanced_dedent closes).1 balanced
        exact (balanced_dedent closes).2 ⟨positive, inductionHypothesis inner⟩
      · exact (balanced_flat flat).2 (inductionHypothesis ((balanced_flat flat).1 balanced))

/-- The tokens behind a first part are laid after its last kind. -/
theorem Laid.drop {previous : Option Kind} {before after : List Token}
    (laid : Laid previous (before ++ after)) : Laid (lastKind previous before) after := by
  induction before generalizing previous with
  | nil => exact laid
  | cons token rest inductionHypothesis =>
      rw [lastKind_cons]
      exact inductionHypothesis laid.2

/-- A first part of laid tokens is laid as well. -/
theorem Laid.take {previous : Option Kind} {before after : List Token}
    (laid : Laid previous (before ++ after)) : Laid previous before := by
  induction before generalizing previous with
  | nil => trivial
  | cons token rest inductionHypothesis =>
      obtain ⟨fits, others⟩ := laid
      refine ⟨⟨fun newline => ?_, fits.blockMark⟩, inductionHypothesis others⟩
      obtain ⟨kind, same, unended, continues⟩ := fits.newline newline
      exact ⟨kind, same, unended, fun goesOn other member =>
        continues goesOn other (List.mem_append_left _ member)⟩

namespace Cursor

/-- A search through inner blocks comes back to the depth where it started. -/
theorem balanced_resume {depth nesting : Nat} {ended : Bool} {tokens : List Token}
    (balanced : Balanced (depth + nesting) tokens) :
    Balanced depth (resume nesting ended tokens) := by
  fun_induction resume nesting ended tokens with
  | case1 nesting ended =>
      have closed : depth + nesting = 0 := balanced
      exact Nat.eq_zero_of_add_eq_zero_right closed
  | case2 nesting ended token rest stops =>
      rwa [stops.1] at balanced
  | case3 nesting ended token rest _ opens inductionHypothesis =>
      exact inductionHypothesis ((balanced_indent opens).1 balanced)
  | case4 ended token rest _ closes => exact balanced
  | case5 ended token rest closes _ => exact ((balanced_dedent closes).1 balanced).2
  | case6 nesting ended token rest _ closes some more inductionHypothesis =>
      apply inductionHypothesis
      have inner := ((balanced_dedent closes).1 balanced).2
      rwa [Nat.add_sub_assoc (Nat.one_le_iff_ne_zero.2 some)] at inner
  | case7 nesting ended token rest _ noIndent noDedent stops =>
      rwa [stops.1] at balanced
  | case8 nesting ended token rest _ noIndent noDedent _ inductionHypothesis =>
      apply inductionHypothesis
      obtain opens | closes | flat := token.kind.blockMark_cases
      · exact absurd opens noIndent
      · exact absurd closes noDedent
      · exact (balanced_flat flat).1 balanced

/-- Recovery keeps the depth: it skips whole blocks and stops before the end of its own. -/
theorem balanced_recover {depth : Nat} {cursor : Cursor} (balanced : Balanced depth cursor.rest) :
    Balanced depth (cursor.recover depth).rest := by
  cases ends : cursor.closes depth with
  | true => rwa [recover, if_pos ends]
  | false =>
      rw [recover_rest ends]
      apply balanced_resume
      cases tokens : cursor.rest with
      | nil =>
          have eof : cursor.kind = .eof := by rw [kind_eq, tokens]; rfl
          simp [closes, eof] at ends
      | cons token rest =>
          have kind := kind_of_rest tokens
          rw [tokens] at balanced
          rw [List.tail_cons]
          obtain opens | closes | flat := token.kind.blockMark_cases
          · rw [if_pos (kind.trans opens)]
            exact (balanced_indent opens).1 balanced
          · obtain ⟨positive, -⟩ := (balanced_dedent closes).1 balanced
            have closed : cursor.closes depth = true :=
              closes_iff.2 (.inr ⟨Nat.pos_iff_ne_zero.1 positive, kind.trans closes⟩)
            rw [closed] at ends
            cases ends
          · have differs : cursor.kind ≠ .indent := by
              rw [kind]
              exact (Kind.ne_of_isBlockMark_eq_false flat).1
            rw [if_neg differs]
            exact (balanced_flat flat).1 balanced

/-- A step keeps the milestones. -/
theorem next_trail (cursor : Cursor) : cursor.next.trail = cursor.trail := by
  unfold next
  split <;> rfl

/-- Recovery keeps the mistakes that are noted. -/
theorem recover_errors (cursor : Cursor) (depth : Nat) :
    (cursor.recover depth).errors = cursor.errors := by
  unfold recover
  split <;> rfl

/-- Recovery keeps the milestones. -/
theorem recover_trail (cursor : Cursor) (depth : Nat) :
    (cursor.recover depth).trail = cursor.trail := by
  unfold recover
  split <;> rfl

/-- The cursor sits in the script at the depth that the tokens to come close, and so did every
milestone on its way. -/
structure Sits (body : List Token) (depth : Nat) (cursor : Cursor) : Prop where
  here : body.drop cursor.position = cursor.rest
  within : cursor.Within body.length
  balanced : Balanced depth cursor.rest
  laid : ∃ previous, Laid previous cursor.rest
  trail : ∀ milestone ∈ cursor.trail, Balanced milestone.depth (body.drop milestone.position)

variable {body : List Token} {depth : Nat} {cursor : Cursor}

/-- A cursor that moves on to balanced tokens still sits in the script. -/
theorem Sits.move {inner : Nat} {after : Cursor} (sits : Sits body depth cursor)
    (advances : Advances cursor after) (trail : after.trail = cursor.trail)
    (balanced : Balanced inner after.rest) : Sits body inner after where
  here := by
    obtain ⟨used, rest, position⟩ := advances.passed
    rw [position, ← List.drop_drop, sits.here, rest, List.drop_left]
  within := sits.within.later advances
  balanced := balanced
  laid := by
    obtain ⟨used, rest, -⟩ := advances.passed
    obtain ⟨previous, laid⟩ := sits.laid
    rw [rest] at laid
    exact ⟨_, laid.drop⟩
  trail := by
    rw [trail]
    exact sits.trail

/-- A milestone at its own depth leaves the cursor in its place. -/
theorem Sits.mark (sits : Sits body depth cursor) : Sits body depth (cursor.mark depth) where
  here := sits.here
  within := sits.within.later (mark_advances cursor depth)
  balanced := sits.balanced
  laid := sits.laid
  trail milestone member := by
    obtain rfl | earlier := List.mem_cons.1 member
    · change Balanced depth (body.drop cursor.position)
      rw [sits.here]
      exact sits.balanced
    · exact sits.trail milestone earlier

/-- A colon and a comma never stand before the start or the end of a block. -/
theorem Sits.parameter (sits : Sits body depth cursor)
    (separator : cursor.kind = .symbol .colon ∨ cursor.kind = .symbol .comma) :
    Sits body depth cursor.next.next := by
  have trail := (next_trail cursor.next).trans (next_trail cursor)
  apply sits.move ((next_advances _).trans (next_advances _)) trail
  rw [next_rest, next_rest]
  cases tokens : cursor.rest with
  | nil =>
      rw [kind_eq, tokens] at separator
      obtain same | same := separator <;> cases same
  | cons first rest =>
      have balanced := sits.balanced
      obtain ⟨previous, laid⟩ := sits.laid
      rw [kind_of_rest tokens] at separator
      rw [tokens] at balanced laid
      have flat : first.kind.isBlockMark = false := by
        obtain same | same := separator <;> rw [same] <;> rfl
      have inner := (balanced_flat flat).1 balanced
      rw [List.tail_cons]
      cases rest with
      | nil => exact inner
      | cons second others =>
          have unmarked : second.kind.isBlockMark = false := by
            cases mark : second.kind.isBlockMark with
            | false => rfl
            | true =>
                have start := laid.2.1.blockMark mark first.kind rfl
                obtain same | same := separator <;> rw [same] at start <;>
                  obtain ends | continues := start <;> contradiction
          exact (balanced_flat unmarked).1 inner

/-- Behind an indent the cursor sits one block deeper. -/
theorem Sits.indent (sits : Sits body depth cursor) (indent : cursor.kind = .indent) :
    Sits body (depth + 1) cursor.next := by
  apply sits.move (next_advances cursor) (next_trail cursor)
  have balanced := sits.balanced
  have more : cursor.kind ≠ .eof := by rw [indent]; simp
  rw [(passes_next more).rest] at balanced
  exact (balanced_indent indent).1 balanced

/-- Behind a dedent the cursor has left one block. -/
theorem Sits.dedent (sits : Sits body (depth + 1) cursor) (dedent : cursor.kind = .dedent) :
    Sits body depth cursor.next := by
  apply sits.move (next_advances cursor) (next_trail cursor)
  have balanced := sits.balanced
  have more : cursor.kind ≠ .eof := by rw [dedent]; simp
  rw [(passes_next more).rest] at balanced
  exact ((balanced_dedent dedent).1 balanced).2

/-- No block is open at the end. -/
theorem Sits.depth_eq_zero (sits : Sits body depth cursor) (ends : cursor.kind = .eof) :
    depth = 0 := by
  have balanced := sits.balanced
  rw [sits.within.rest_eq_nil ends] at balanced
  exact balanced

/-- Recovery leads to a place of the same depth. -/
theorem Sits.recover (sits : Sits body depth cursor) (error : SyntaxError) :
    Sits body depth ((cursor.note error).recover depth) :=
  sits.move ((note_advances cursor error).trans (recover_advances _ depth))
    (recover_trail _ depth) (balanced_recover sits.balanced)

mutual

/-- A cursor that moves on at one depth sits at that depth again. -/
theorem Goes.sits {depth : Nat} {cursor after : Cursor} :
    Goes depth cursor after → Sits body depth cursor → Sits body depth after
  | .flat walks => fun sits => by
      apply sits.move walks.toPasses.advances walks.trail
      rw [← balanced_flats walks.flat, ← walks.rest]
      exact sits.balanced
  | .parameter separator => fun sits => sits.parameter separator
  | .block indent inside => fun sits => by
      have inner := inside.sits (sits.indent indent)
      split
      next dedent => exact inner.dedent dedent
      next open_ =>
        -- A block can only stay open at the end, where the layout has closed all of them.
        obtain ends | ⟨-, dedent⟩ := closes_iff.1 inside.closes
        · cases inner.depth_eq_zero ends
        · exact absurd dedent open_
  | .trans start further => fun sits => further.sits (start.sits sits)

/-- A list of statements ends as deep as it starts. -/
theorem Lists.sits {depth : Nat} {cursor last : Cursor} :
    Lists depth cursor last → Sits body depth cursor → Sits body depth last
  | .stop _ => fun sits => sits.mark
  | .statement _ goes _ others => fun sits => others.sits (goes.sits sits.mark)
  | .mistake _ goes _ _ others => fun sits => others.sits ((goes.sits sits.mark).recover _)

end

/-- The last milestone of a list is where it ends. -/
theorem Lists.milestone {depth : Nat} {cursor last : Cursor} :
    Lists depth cursor last → last.trail.head? = some ⟨depth, last.position⟩
  | .stop _ => rfl
  | .statement _ _ _ others => others.milestone
  | .mistake _ _ _ _ others => others.milestone

end Cursor

open Cursor

/-- The tokens of a text are its script and an end. -/
theorem scan_script (source : String) :
    ∃ last, last.kind = .eof ∧ (scan source).tokens = script (scan source).tokens ++ [last] := by
  obtain ⟨body, line, tokens, goesOn, -⟩ := scan_closing source
  let last := Token.layout .eof line
  have all : ∀ token ∈ body ++ List.replicate (openBlocks source) (.layout .dedent line),
      token.kind ≠ .eof := by
    intro token member
    obtain member | member := List.mem_append.1 member
    · exact goesOn token member
    · rw [List.eq_of_mem_replicate member]
      exact fun same => by cases same
  refine ⟨last, rfl, ?_⟩
  have whole := script_append all [last]
  have none : script [last] = [] := rfl
  rw [none, List.append_nil] at whole
  rw [tokens, whole]

/-- A parser starts outside every block of a scanned text. -/
theorem scan_sits (source : String) :
    Sits (script (scan source).tokens) 0 (.ofTokens (scan source).tokens) where
  here := List.drop_zero
  within := ofTokens_within _
  balanced := by
    obtain ⟨last, ends, tokens⟩ := scan_script source
    have balanced := scan_balanced source
    rw [tokens] at balanced
    exact balanced.script ends
  laid := by
    obtain ⟨last, -, tokens⟩ := scan_script source
    have laid := scan_laid source
    rw [tokens] at laid
    exact ⟨none, laid.take⟩
  trail milestone member := by cases member

section Milestones

variable {body : List Token} {ending : Token} {position depth : Nat}

/-- The tokens before a place have opened the blocks that those after it close. -/
theorem openings_take (ends : ending.kind = .eof) (balanced : Balanced 0 body)
    (inner : Balanced depth (body.drop position)) :
    Token.openings ((body ++ [ending]).take position) =
      Token.closings ((body ++ [ending]).take position) + depth := by
  rw [← List.take_append_drop position body] at balanced
  obtain ⟨open_, rest, same⟩ := balanced.drop
  have left := inner.count
  have right := rest.count
  have noMark (count : Nat) : Token.openings ([ending].take count) = 0 ∧
      Token.closings ([ending].take count) = 0 := by
    cases count <;> simp [Token.openings, Token.closings, ends]
  obtain ⟨noIndent, noDedent⟩ := noMark (position - body.length)
  rw [List.take_append]
  unfold Token.openings Token.closings at *
  rw [List.countP_append, List.countP_append, noIndent, noDedent]
  omega

/-- Outside every block the next token closes none. -/
theorem headKind_drop (ends : ending.kind = .eof) (outside : Balanced 0 (body.drop position)) :
    headKind ((body ++ [ending]).drop position) ≠ .dedent := by
  rw [List.drop_append]
  cases tokens : body.drop position with
  | nil =>
      rw [List.nil_append]
      cases position - body.length with
      | zero =>
          change ending.kind ≠ .dedent
          rw [ends]
          simp
      | succ count => simp [headKind]
  | cons token rest =>
      intro dedent
      rw [tokens] at outside
      have kind : token.kind = .dedent := dedent
      have positive := ((balanced_dedent kind).1 outside).1
      omega

end Milestones

/-- Wherever a list of statements goes on or ends, the parser is as deep as the layout: as many
blocks are open as the tokens so far have opened and not closed. No dedent is left for the outermost
list, which ends with the script. -/
structure Nested (tokens : List Token) (last : Cursor) : Prop where
  depth : ∀ milestone ∈ last.trail, Token.openings (tokens.take milestone.position) =
    Token.closings (tokens.take milestone.position) + milestone.depth
  outermost : ∀ milestone ∈ last.trail, milestone.depth = 0 →
    headKind (tokens.drop milestone.position) ≠ .dedent
  consumed : last.rest = []
  position : last.position + 1 = tokens.length
  final : last.trail.head? = some ⟨0, last.position⟩

/-- The parser's blocks are those of the layout, whatever mistakes the text has. -/
theorem milestones_nested (source : String) :
    Nested (scan source).tokens (Parser.program (scan source).tokens).2 := by
  obtain ⟨listed, -⟩ := Parser.program_ensures (scan source).tokens
  obtain ⟨ending, ends, whole⟩ := scan_script source
  have start := scan_sits source
  have sits := listed.sits start
  generalize (scan source).tokens = tokens at *
  generalize (Parser.program tokens).2 = last at *
  have empty : last.rest = [] := sits.within.rest_eq_nil listed.kind_eq_eof
  constructor
  case depth =>
      intro milestone member
      rw [whole]
      exact openings_take ends start.balanced (sits.trail milestone member)
  case outermost =>
      intro milestone member outside
      have inner := sits.trail milestone member
      rw [outside] at inner
      rw [whole]
      exact headKind_drop ends inner
  case consumed => exact empty
  case position =>
      obtain ⟨used, rest, position⟩ := listed.advances.passed
      have all : script tokens = used := by
        rw [← ofTokens_rest, rest, empty, List.append_nil]
      have reached : last.position = used.length := position.trans (Nat.zero_add _)
      rw [whole, List.length_append, List.length_singleton, all, reached]
  case final => exact listed.milestone

end Offside
