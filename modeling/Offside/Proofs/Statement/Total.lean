/-
This file proves that any list of tokens can be parsed: the parser stops, stays within the tokens
and moves on with every statement.
-/

import Offside.Proofs.Nesting
import Offside.Proofs.Statement.Budget
import Mathlib.Data.List.Chain

namespace Offside

namespace Cursor

/-- A list that does not close with an end gets one, on the line of its last token. -/
def closed (tokens : List Token) : List Token :=
  match tokens.getLast? with
  | none => [.layout .eof 1]
  | some last => if isEnd last then tokens else tokens ++ [.layout .eof last.line]

/-- The script ends at the first end, or it is all of the tokens. -/
theorem script_cases (tokens : List Token) :
    (∃ stop later, tokens = script tokens ++ stop :: later ∧ isEnd stop = true ∧
      tokens.find? isEnd = some stop) ∨
    (script tokens = tokens ∧ tokens.find? isEnd = none) := by
  cases found : tokens.find? isEnd with
  | some stop =>
      obtain ⟨ends, before, later, rfl, goesOn⟩ := List.find?_eq_some_iff_append.1 found
      refine .inl ⟨stop, later, ?_, ends, rfl⟩
      rw [script, List.takeWhile_append_of_pos goesOn, List.takeWhile_cons_of_neg (by simp [ends]),
        List.append_nil]
  | none =>
      refine .inr ⟨?_, rfl⟩
      rw [script, List.takeWhile_eq_self_iff]
      simpa using found

/-- The closed tokens start with the tokens. -/
theorem closed_prefix (tokens : List Token) : tokens <+: closed tokens := by
  unfold closed
  split
  · next empty => exact List.getLast?_eq_none_iff.1 empty ▸ List.nil_prefix
  · split
    · exact List.prefix_rfl
    · exact List.prefix_append _ _

/-- The script is closed by the first end. -/
theorem closed_eq (tokens : List Token) :
    ∃ stop later, closed tokens = script tokens ++ stop :: later ∧ stop.kind = .eof ∧
      stop.line = (ofTokens tokens).endLine := by
  rcases script_cases tokens with ⟨stop, later, same, ends, found⟩ | ⟨same, found⟩
  · obtain ⟨extra, closes⟩ := closed_prefix tokens
    refine ⟨stop, later ++ extra, ?_, by simpa [isEnd] using ends, by simp [ofTokens, found]⟩
    rw [← closes]
    nth_rewrite 1 [same]
    simp
  · cases final : tokens.getLast? with
    | none =>
        refine ⟨.layout .eof 1, [], ?_, rfl, by simp [ofTokens, found, final, Token.layout]⟩
        rw [same, closed, final, List.getLast?_eq_none_iff.1 final]
        rfl
    | some last =>
        have goesOn : isEnd last = false := by
          simpa using List.find?_eq_none.1 found last (List.mem_of_getLast? final)
        refine ⟨.layout .eof last.line, [], ?_, rfl, ?_⟩
        · simp [same, closed, final, goesOn]
        · simp [ofTokens, found, final, Token.layout]

/-- The end and what comes after it do not matter, except for the line of the end. -/
theorem ofTokens_take (tokens : List Token) :
    ofTokens (tokens.take ((script tokens).length + 1)) = ofTokens tokens := by
  rcases script_cases tokens with ⟨stop, later, same, ends, found⟩ | ⟨same, -⟩
  · have taken : tokens.take ((script tokens).length + 1) = script tokens ++ [stop] := by
      rw [congrArg (List.take ((script tokens).length + 1)) same, List.take_length_add_append]
      rfl
    have goesOn (token : Token) (member : token ∈ script tokens) : isEnd token = false := by
      simpa [isEnd] using script_goesOn tokens token member
    rw [taken]
    apply Cursor.ext
    · change script (script tokens ++ [stop]) = script tokens
      rw [script_append (script_goesOn tokens)]
      simp [script, ends]
    · rfl
    · have first : (script tokens ++ [stop]).find? isEnd = some stop := by
        rw [List.find?_append, List.find?_eq_none.2 (by simpa using goesOn)]
        simp [ends]
      simp [ofTokens, found, first]
    · rfl
    · rfl
  · rw [same, List.take_of_length_le (Nat.le_succ _)]

/-- The cursor stands at a token, or at the first end, and only other tokens come before it. -/
structure Stands (tokens : List Token) (cursor : Cursor) : Prop where
  position : cursor.position ≤ (script tokens).length
  here : ∃ token, (closed tokens)[cursor.position]? = some token ∧ token.kind = cursor.kind ∧
    token.line = cursor.token.line ∧ (cursor.kind ≠ .eof → token = cursor.token)
  before : ∀ index < cursor.position, ∃ token, (closed tokens)[index]? = some token ∧
    token.kind ≠ .eof

/-- A cursor on its way from the start stands at a token. -/
theorem Advances.stands {tokens : List Token} {cursor : Cursor}
    (advances : (ofTokens tokens).Advances cursor) : Stands tokens cursor := by
  obtain ⟨used, rest, position⟩ := advances.passed
  obtain ⟨stop, later, closes, ends, line⟩ := closed_eq tokens
  have same : script tokens = used ++ cursor.rest := rest
  have place : cursor.position = used.length := position.trans (Nat.zero_add _)
  refine ⟨?_, ?_, ?_⟩
  · rw [place, same, List.length_append]
    exact Nat.le_add_right _ _
  · rw [place, closes, same, List.append_assoc, List.getElem?_append_right (Nat.le_refl _),
      Nat.sub_self]
    cases tokens' : cursor.rest with
    | nil =>
        have kind : cursor.kind = .eof := Parser.kind_of_empty tokens'
        refine ⟨stop, rfl, by rw [kind, ends], ?_, fun goesOn => absurd kind goesOn⟩
        rw [line, ← advances.endLine, token, tokens']
        rfl
    | cons token others =>
        rw [kind_of_rest tokens', token_of_rest tokens']
        exact ⟨token, rfl, rfl, rfl, fun _ => rfl⟩
  · intro index early
    have inside : index < (script tokens).length := by
      rw [same, List.length_append]
      omega
    refine ⟨(script tokens).get ⟨index, inside⟩, ?_, ?_⟩
    · rw [closes, List.getElem?_append_left inside]
      simp
    · exact script_goesOn tokens _ (List.get_mem _ _)

/-- From one milestone to the next at most one block is entered or left. -/
def Paced (trail : List Milestone) : Prop :=
  trail.IsChain fun later earlier => later.depth ≤ earlier.depth + 1 ∧
    earlier.depth ≤ later.depth + 1

/-- The trail is paced, and its last milestone lies between these depths. -/
structure PacedTo (lowest highest : Nat) (trail : List Milestone) : Prop where
  paced : Paced trail
  last : ∀ milestone ∈ trail.head?, lowest ≤ milestone.depth ∧ milestone.depth ≤ highest

/-- A milestone at a near depth keeps the trail paced. -/
theorem PacedTo.mark {lowest highest depth : Nat} {cursor : Cursor}
    (paced : PacedTo lowest highest cursor.trail) (near : depth ≤ lowest + 1)
    (far : highest ≤ depth + 1) : PacedTo depth depth (cursor.mark depth).trail := by
  constructor
  · refine List.isChain_cons.2 ⟨?_, paced.paced⟩
    intro milestone member
    obtain ⟨low, high⟩ := paced.last milestone member
    exact ⟨by dsimp only; omega, by dsimp only; omega⟩
  · intro milestone member
    obtain rfl : _ = milestone := Option.some.inj member
    exact ⟨Nat.le_refl _, Nat.le_refl _⟩

/-- A trail between two depths is between wider ones. -/
theorem PacedTo.mono {lowest highest lower higher : Nat} {trail : List Milestone}
    (paced : PacedTo lowest highest trail) (low : lower ≤ lowest) (high : highest ≤ higher) :
    PacedTo lower higher trail where
  paced := paced.paced
  last milestone member := by
    obtain ⟨lowest, highest⟩ := paced.last milestone member
    exact ⟨by omega, by omega⟩

mutual

/-- Inside a statement, the last milestone is that of its list or the end of a block in it. -/
theorem Goes.paced {depth : Nat} {cursor after : Cursor} :
    Goes depth cursor after → PacedTo depth (depth + 1) cursor.trail →
      PacedTo depth (depth + 1) after.trail
  | .flat walks, paced => by rwa [walks.trail]
  | .parameter _, paced => by rwa [next_trail, next_trail]
  | .block _ inside, paced => by
      rw [← next_trail] at paced
      have inner := (inside.paced paced (by omega) (by omega)).mono (Nat.le_succ _) (Nat.le_refl _)
      split
      · rwa [next_trail]
      · exact inner
  | .trans start further, paced => further.paced (start.paced paced)

/-- The last milestone of a list is its own end. -/
theorem Lists.paced {lowest highest depth : Nat} {cursor last : Cursor} :
    Lists depth cursor last → PacedTo lowest highest cursor.trail → depth ≤ lowest + 1 →
      highest ≤ depth + 1 → PacedTo depth depth last.trail
  | .stop _, paced, near, far => paced.mark near far
  | .statement _ goes _ others, paced, near, far => by
      have marked := (paced.mark near far).mono (Nat.le_refl _) (Nat.le_succ _)
      exact others.paced (goes.paced marked) (by omega) (by omega)
  | @Lists.mistake _ _ _ place middle _ mistake _ goes _ _ others, paced, near, far => by
      have marked := (paced.mark near far).mono (Nat.le_refl _) (Nat.le_succ _)
      have resumed : PacedTo depth (depth + 1)
          ((middle.note (place.error mistake)).recover depth).trail := by
        rw [recover_trail]
        exact goes.paced marked
      exact others.paced resumed (by omega) (by omega)

end

/-- The first milestone of a list is its start. -/
theorem Lists.trail_suffix {depth : Nat} {cursor last : Cursor} (listed : Lists depth cursor last) :
    (cursor.mark depth).trail <:+ last.trail := by
  cases listed with
  | stop => exact List.suffix_rfl
  | statement _ goes _ others => exact (goes.advances.trans others.advances).trail
  | mistake _ goes _ _ others =>
      have recovered := (recover_advances _ _).trans others.advances
      exact (goes.advances.trans ((note_advances _ _).trans recovered)).trail

/-- A cursor with fewer tokens left has moved on. -/
theorem Advances.position_lt {cursor after : Cursor} (advances : Advances cursor after)
    (shorter : after.rest.length < cursor.rest.length) : cursor.position < after.position := by
  obtain ⟨used, rest, position⟩ := advances.passed
  rw [rest, List.length_append] at shorter
  omega

end Cursor

namespace Parser

open Cursor

/-- However the run ends, it goes on from where it starts. -/
def GoesOn {α : Type} (parser : Parser α) (cursor : Cursor) : Prop :=
  Ensures parser cursor (fun _ after => cursor.Advances after) fun _ after => cursor.Advances after

/-- An expression moves on from where it starts. -/
theorem expression_goesOn (cursor : Cursor) : GoesOn expression cursor := by
  apply (expression_reads cursor).mono
  · rintro tree after ⟨used, walks, -⟩
    exact walks.toPasses.advances
  · rintro error after ⟨before, place, between, -, start, further, -⟩
    exact (start.trans further).toPasses.advances

/-- A statement moves on from where it starts. -/
theorem statementWithin_goesOn {budget depth : Nat} {cursor : Cursor}
    (within : cursor.Within budget) : GoesOn (statementWithin budget depth) cursor := by
  apply (statementWithin_sound budget depth cursor within).mono
  · exact fun _ _ keeps => keeps.1.advances
  · exact fun _ _ stumbles => stumbles.1.advances

/-- A program leaves no token. -/
theorem program_rest (tokens : List Token) : (program tokens).2.rest = [] := by
  have listed := (program_ensures tokens).1
  exact ((ofTokens_within tokens).later listed.advances).rest_eq_nil listed.kind_eq_eof

/-- This is what parsing does with any list of tokens. -/
structure Total (tokens : List Token) : Prop where
  /-- An expression is read with the help of expressions that have fewer tokens left. -/
  expressions : ∀ (other : Parser Expression) (cursor : Cursor) (budget : Nat),
    (∀ place : Cursor, place.rest.length < cursor.rest.length → other place = expression place) →
    cursor.rest.length ≤ budget → assignment other budget cursor = expression cursor
  /-- A statement is read with the help of statements that have fewer tokens left. -/
  statements : ∀ (other : Nat → Parser Statement) (cursor : Cursor) (budget depth : Nat),
    (∀ token ∈ cursor.rest, token.kind ≠ .eof) →
    (∀ depth place, Inside cursor.rest.length place → other depth place = statement depth place) →
    cursor.rest.length ≤ budget → statementStep other budget depth cursor = statement depth cursor
  /-- No loop and no recursion needs more rounds than there are tokens. -/
  budget : ∀ budget, (script tokens).length ≤ budget →
    Parser.statements (statementWithin budget 0) 0 budget (.ofTokens tokens) = program tokens
  /-- Wherever the parser gets to, it looks at tokens that are there. -/
  stands : ∀ cursor, (Cursor.ofTokens tokens).Advances cursor → Stands tokens cursor
  goesOn : ∀ cursor, (Cursor.ofTokens tokens).Advances cursor → GoesOn expression cursor ∧
    ∀ depth, GoesOn (statement depth) cursor
  /-- Every statement of every list brings it forward, whether it fails or not. -/
  forward : ∀ (cursor : Cursor) (budget depth : Nat), (Cursor.ofTokens tokens).Advances cursor →
    cursor.rest.length ≤ budget → cursor.closes depth = false →
    cursor.position < (attempt (statementWithin budget depth) depth (cursor.mark depth)).2.position
  /-- Blocks are entered and left one at a time, and all that were entered are left. -/
  paced : Paced (program tokens).2.trail
  first : (program tokens).2.trail.getLast? = some ⟨0, 0⟩
  last : (program tokens).2.trail.head? = some ⟨0, (script tokens).length⟩
  /-- The parser gets to the first end and sees nothing after it. -/
  finish : (program tokens).2.position = (script tokens).length
  upToEnd : program (tokens.take ((script tokens).length + 1)) = program tokens

/-- Every list of tokens can be parsed, with ends anywhere or nowhere and blocks that do not
match. -/
theorem program_total (tokens : List Token) : Total tokens := by
  have listed := (program_ensures tokens).1
  have finish : (program tokens).2.position = (script tokens).length := by
    obtain ⟨used, rest, position⟩ := listed.advances.passed
    rw [program_rest, List.append_nil] at rest
    rw [position, ← rest]
    exact Nat.zero_add _
  have within (cursor : Cursor) (advances : (Cursor.ofTokens tokens).Advances cursor) :
      ∀ token ∈ cursor.rest, token.kind ≠ .eof :=
    ((ofTokens_within tokens).later advances).goesOn
  constructor
  case expressions => exact fun other cursor budget => assignment_eq_expression
  case statements =>
      exact fun other cursor budget depth goesOn inner => statementStep_eq_statement inner goesOn
  case budget => exact fun budget => program_eq_statements tokens
  case stands => exact fun cursor => Advances.stands
  case goesOn =>
      intro cursor advances
      refine ⟨expression_goesOn cursor, fun depth => ?_⟩
      exact statementWithin_goesOn ⟨Nat.le_refl _, within cursor advances⟩
  case forward =>
      intro cursor budget depth advances enough goesOn
      obtain ⟨moved, shorter⟩ := attempt_forward (statementWithin_sound budget depth)
        ⟨enough, within cursor advances⟩ goesOn
      exact moved.position_lt shorter
  case paced =>
      have start : PacedTo 0 0 (Cursor.ofTokens tokens).trail :=
        ⟨List.isChain_nil, by simp [ofTokens]⟩
      exact (listed.paced start (by omega) (by omega)).paced
  case first =>
      obtain ⟨later, same⟩ := listed.trail_suffix
      rw [← same]
      simp [mark, ofTokens]
  case last => rw [listed.milestone, finish]
  case finish => exact finish
  case upToEnd => rw [program, program, ofTokens_take]

end Parser

end Offside
