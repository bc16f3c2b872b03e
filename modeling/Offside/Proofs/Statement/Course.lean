/-
This file says how a cursor moves through statements, with all mistakes and recoveries on its way.
-/

import Offside.Proofs.Expression.Sound

namespace Offside

namespace Cursor

/-- The cursor moves on and only adds to its errors and to its trail. -/
structure Advances (cursor after : Cursor) : Prop where
  passed : ∃ used, cursor.rest = used ++ after.rest ∧
    after.position = cursor.position + used.length
  endLine : after.endLine = cursor.endLine
  errors : cursor.errors <+: after.errors
  trail : cursor.trail <:+ after.trail

namespace Advances

variable {first second third : Cursor}

theorem refl (cursor : Cursor) : Advances cursor cursor :=
  ⟨⟨[], rfl, rfl⟩, rfl, List.prefix_rfl, List.suffix_rfl⟩

/-- A cursor that moves on twice has moved on. -/
theorem trans (start : Advances first second) (further : Advances second third) :
    Advances first third where
  passed := by
    obtain ⟨used, rest, position⟩ := start.passed
    obtain ⟨others, restOthers, positionOthers⟩ := further.passed
    refine ⟨used ++ others, ?_, ?_⟩
    · rw [rest, restOthers, List.append_assoc]
    · rw [positionOthers, position, List.length_append, Nat.add_assoc]
  endLine := further.endLine.trans start.endLine
  errors := start.errors.trans further.errors
  trail := start.trail.trans further.trail

/-- A cursor that moves on has no more tokens left than before. -/
theorem length (advances : Advances first second) : second.rest.length ≤ first.rest.length := by
  obtain ⟨used, rest, -⟩ := advances.passed
  rw [rest, List.length_append]
  exact Nat.le_add_left _ _

/-- Moving on keeps the sum of the tokens before and after the cursor. -/
theorem total (advances : Advances first second) :
    second.position + second.rest.length = first.position + first.rest.length := by
  obtain ⟨used, rest, position⟩ := advances.passed
  rw [position, rest, List.length_append]
  omega

/-- A cursor that moves on does not move back. -/
theorem position_le (advances : Advances first second) : first.position ≤ second.position := by
  obtain ⟨used, -, position⟩ := advances.passed
  rw [position]
  exact Nat.le_add_right _ _

/-- Where no error is added in all, none is added on the way. -/
theorem errors_eq (start : Advances first second) (further : Advances second third)
    (same : third.errors = first.errors) :
    second.errors = first.errors ∧ third.errors = second.errors := by
  have back : second.errors <+: first.errors := same ▸ further.errors
  have equal : second.errors = first.errors := (start.errors.eq_of_length_le back.length_le).symm
  exact ⟨equal, same.trans equal.symm⟩

end Advances

/-- At most so many tokens are left, and none of them is an end. -/
structure Within (limit : Nat) (cursor : Cursor) : Prop where
  length : cursor.rest.length ≤ limit
  goesOn : ∀ token ∈ cursor.rest, token.kind ≠ .eof

namespace Within

variable {limit : Nat} {cursor after : Cursor}

/-- A cursor that moves on stays within the limit. -/
theorem later (within : Within limit cursor) (advances : Advances cursor after) :
    Within limit after where
  length := Nat.le_trans advances.length within.length
  goesOn token member := by
    obtain ⟨used, rest, -⟩ := advances.passed
    exact within.goesOn token (rest ▸ List.mem_append_right used member)

/-- A cursor that moves on over a token is within the lower limit. -/
theorem inside (within : Within (limit + 1) cursor) (advances : Advances cursor after)
    (shorter : after.rest.length < cursor.rest.length) : Within limit after where
  length := Nat.le_of_lt_succ (Nat.lt_of_lt_of_le shorter within.length)
  goesOn := (within.later advances).goesOn

/-- Only the end of the tokens has the kind of an end. -/
theorem rest_eq_nil (within : Within limit cursor) (ends : cursor.kind = .eof) :
    cursor.rest = [] := by
  cases tokens : cursor.rest with
  | nil => rfl
  | cons token rest =>
      rw [kind_of_rest tokens] at ends
      exact absurd ends (within.goesOn token (by rw [tokens]; exact List.mem_cons_self))

end Within

/-- A fresh cursor is within the tokens of its script. -/
theorem ofTokens_within (tokens : List Token) :
    (ofTokens tokens).Within (ofTokens tokens).rest.length :=
  ⟨Nat.le_refl _, script_goesOn tokens⟩

/-- A pass moves the cursor on. -/
theorem Passes.advances {cursor after : Cursor} {used : List Token}
    (passes : Passes cursor used after) : Advances cursor after where
  passed := ⟨used, passes.rest, passes.position⟩
  endLine := passes.endLine
  errors := passes.errors ▸ List.prefix_rfl
  trail := passes.trail ▸ List.suffix_rfl

theorem next_advances (cursor : Cursor) : Advances cursor cursor.next := by
  by_cases ends : cursor.kind = .eof
  · cases tokens : cursor.rest with
    | nil =>
        have same : cursor.next = cursor := by rw [next, tokens]
        rw [same]
        exact Advances.refl cursor
    | cons token rest => exact (next_of_rest tokens).advances
  · exact (passes_next ends).advances

theorem mark_advances (cursor : Cursor) (depth : Nat) : Advances cursor (cursor.mark depth) :=
  ⟨⟨[], rfl, rfl⟩, rfl, List.prefix_rfl, List.suffix_cons _ _⟩

theorem note_advances (cursor : Cursor) (error : SyntaxError) :
    Advances cursor (cursor.note error) :=
  ⟨⟨[], rfl, rfl⟩, rfl, List.prefix_append _ _, List.suffix_rfl⟩

/-- Recovery leaves an end of the tokens. -/
theorem resume_suffix (nesting : Nat) (ended : Bool) (tokens : List Token) :
    resume nesting ended tokens <:+ tokens := by
  fun_induction resume nesting ended tokens with
  | case1 => exact List.suffix_rfl
  | case2 => exact List.suffix_rfl
  | case3 nesting ended token rest _ kind inductionHypothesis =>
      exact inductionHypothesis.trans (List.suffix_cons _ _)
  | case4 => exact List.suffix_rfl
  | case5 => exact List.suffix_cons _ _
  | case6 nesting ended token rest _ kind _ _ inductionHypothesis =>
      exact inductionHypothesis.trans (List.suffix_cons _ _)
  | case7 => exact List.suffix_rfl
  | case8 nesting ended token rest _ _ _ _ inductionHypothesis =>
      exact inductionHypothesis.trans (List.suffix_cons _ _)

theorem next_rest (cursor : Cursor) : cursor.next.rest = cursor.rest.tail := by
  cases tokens : cursor.rest <;> simp [next, tokens]

theorem next_errors (cursor : Cursor) : cursor.next.errors = cursor.errors := by
  unfold next
  split <;> rfl

/-- Away from the end of its block, recovery takes up the tokens after the next one. -/
theorem recover_rest {cursor : Cursor} {depth : Nat} (goesOn : cursor.closes depth = false) :
    (cursor.recover depth).rest = resume (if cursor.kind = .indent then 1 else 0)
      cursor.kind.isTerminator cursor.rest.tail := by
  simp [recover, goesOn, next_rest]

/-- Recovery moves the cursor on. -/
theorem recover_advances (cursor : Cursor) (depth : Nat) :
    Advances cursor (cursor.recover depth) := by
  unfold recover
  split
  · exact Advances.refl cursor
  · dsimp only
    generalize nesting : (if cursor.kind = .indent then 1 else 0) = count
    obtain ⟨used, same⟩ := (resume_suffix count cursor.kind.isTerminator cursor.next.rest).trans
      (next_rest cursor ▸ List.tail_suffix cursor.rest)
    refine ⟨⟨used, same.symm, ?_⟩, rfl, List.prefix_rfl, List.suffix_rfl⟩
    have length := congrArg List.length same
    rw [List.length_append] at length
    dsimp only
    omega

/-- A list closes at the end, and a list inside a block also at a dedent. -/
theorem closes_iff {cursor : Cursor} {depth : Nat} :
    cursor.closes depth = true ↔ cursor.kind = .eof ∨ (depth ≠ 0 ∧ cursor.kind = .dedent) := by
  simp [closes]

/-- Recovery always moves on, unless the block is at its end. -/
theorem recover_length {cursor : Cursor} {depth : Nat} (goesOn : cursor.closes depth = false) :
    (cursor.recover depth).rest.length < cursor.rest.length := by
  rw [recover_rest goesOn]
  have shorter := (resume_suffix (if cursor.kind = .indent then 1 else 0)
    cursor.kind.isTerminator cursor.rest.tail).length_le
  cases tokens : cursor.rest with
  | nil =>
      have ends : cursor.kind = .eof := by rw [kind_eq, tokens]; rfl
      simp [closes, ends] at goesOn
  | cons token rest =>
      rw [tokens] at shorter
      exact Nat.lt_succ_of_le shorter

/-- The cursor moves on without a mistake. -/
structure Clears (cursor after : Cursor) : Prop extends Advances cursor after where
  errors_eq : after.errors = cursor.errors

namespace Clears

variable {first second third : Cursor}

theorem refl (cursor : Cursor) : Clears cursor cursor := ⟨.refl cursor, rfl⟩

/-- Two ways without a mistake are one. -/
theorem trans (start : Clears first second) (further : Clears second third) :
    Clears first third :=
  ⟨start.toAdvances.trans further.toAdvances, further.errors_eq.trans start.errors_eq⟩

end Clears

/-- A pass moves the cursor on without a mistake. -/
theorem Passes.clears {cursor after : Cursor} {used : List Token}
    (passes : Passes cursor used after) : Clears cursor after :=
  ⟨passes.advances, passes.errors⟩

theorem next_clears (cursor : Cursor) : Clears cursor cursor.next :=
  ⟨next_advances cursor, next_errors cursor⟩

/-- The mistake at the place is the first one since the turn, and the turn is where the cursor
started or lies before the place. -/
structure Slips (cursor turn place : Cursor) (mistake : Mistake) (after : Cursor) : Prop where
  before : Clears turn place
  apart : turn = cursor ∨ turn.position < place.position
  fits : mistake.Fits place.kind
  beyond : Clears place after

mutual

/-- The cursor moves on at one depth: over flat tokens, over whole blocks, and over whatever stands
in the place of a parameter. -/
inductive Goes : Nat → Cursor → Cursor → Prop
  | flat {depth : Nat} {cursor after : Cursor} {used : List Token} :
      Walks cursor used after → Goes depth cursor after
  | parameter {depth : Nat} {cursor : Cursor} :
      cursor.kind = .symbol .colon ∨ cursor.kind = .symbol .comma →
      Goes depth cursor cursor.next.next
  | block {depth : Nat} {cursor last : Cursor} :
      cursor.kind = .indent → Lists (depth + 1) cursor.next last →
      Goes depth cursor (if last.kind = .dedent then last.next else last)
  | trans {depth : Nat} {first second third : Cursor} :
      Goes depth first second → Goes depth second third → Goes depth first third

/-- The cursor comes by every statement of a list and stops where the list ends. After a mistake it
goes on from where recovery takes it. -/
inductive Lists : Nat → Cursor → Cursor → Prop
  | stop {depth : Nat} {cursor : Cursor} :
      cursor.closes depth = true → Lists depth cursor (cursor.mark depth)
  | statement {depth : Nat} {cursor middle last : Cursor} :
      cursor.closes depth = false → Goes depth (cursor.mark depth) middle →
      middle.rest.length < cursor.rest.length → Lists depth middle last → Lists depth cursor last
  | mistake {depth : Nat} {cursor turn place middle last : Cursor} {mistake : Mistake} :
      cursor.closes depth = false → Goes depth (cursor.mark depth) middle →
      Goes depth (cursor.mark depth) turn → Slips (cursor.mark depth) turn place mistake middle →
      Lists depth ((middle.note (place.error mistake)).recover depth) last →
      Lists depth cursor last

end

mutual

/-- A cursor that moves on at one depth moves on. -/
theorem Goes.advances {depth : Nat} {cursor after : Cursor} :
    Goes depth cursor after → Advances cursor after
  | .flat walks => walks.toPasses.advances
  | .parameter _ => (next_advances _).trans (next_advances _)
  | .block _ inside => by
      have inner := (next_advances _).trans inside.advances
      split
      · exact inner.trans (next_advances _)
      · exact inner
  | .trans start further => start.advances.trans further.advances

/-- A list of statements moves the cursor on. -/
theorem Lists.advances {depth : Nat} {cursor last : Cursor} :
    Lists depth cursor last → Advances cursor last
  | .stop _ => mark_advances _ _
  | .statement _ goes _ others => (mark_advances _ _).trans (goes.advances.trans others.advances)
  | .mistake _ goes _ _ others => (mark_advances _ _).trans (goes.advances.trans
      ((note_advances _ _).trans ((recover_advances _ _).trans others.advances)))

end

theorem Goes.refl (depth : Nat) (cursor : Cursor) : Goes depth cursor cursor :=
  .flat (Walks.refl cursor)

/-- A step over a flat token stays at its depth. -/
theorem Goes.next {depth : Nat} {cursor : Cursor} (flat : cursor.kind.isFlat = true) :
    Goes depth cursor cursor.next := .flat (Walks.next flat)

/-- A list of statements stops where it closes. -/
theorem Lists.closes {depth : Nat} {cursor last : Cursor} :
    Lists depth cursor last → last.closes depth = true
  | .stop ends => ends
  | .statement _ _ _ others => others.closes
  | .mistake _ _ _ _ others => others.closes

/-- Only the end closes the outermost list. -/
theorem Lists.kind_eq_eof {cursor last : Cursor} (listed : Lists 0 cursor last) :
    last.kind = .eof := by
  obtain ends | ⟨impossible, -⟩ := closes_iff.1 listed.closes
  · exact ends
  · exact absurd rfl impossible

/-- The cursor goes on up to a mistake, which it blames on a token on its way. -/
def Stumbles (depth : Nat) (cursor : Cursor) (error : SyntaxError) (after : Cursor) : Prop :=
  Goes depth cursor after ∧ ∃ turn place mistake, Goes depth cursor turn ∧
    Slips cursor turn place mistake after ∧ error = place.error mistake

namespace Stumbles

variable {depth : Nat} {first second third : Cursor} {used : List Token} {error : SyntaxError}

/-- A stumble behind a walk is a stumble from its start. -/
theorem after (walks : Walks first used second) (stumbles : Stumbles depth second error third) :
    Stumbles depth first error third := by
  obtain ⟨goes, turn, place, mistake, turns, slips, same⟩ := stumbles
  refine ⟨.trans (.flat walks) goes, ?_⟩
  obtain rfl | behind := slips.apart
  · exact ⟨first, place, mistake, .refl depth first,
      ⟨walks.toPasses.clears.trans slips.before, .inl rfl, slips.fits, slips.beyond⟩, same⟩
  · exact ⟨turn, place, mistake, .trans (.flat walks) turns,
      ⟨slips.before, .inr behind, slips.fits, slips.beyond⟩, same⟩

/-- What goes before may hold mistakes of its own when one token at least is passed after it. -/
theorem afterWord (goes : Goes depth first second) (flat : second.kind.isFlat = true)
    (stumbles : Stumbles depth second.next error third) : Stumbles depth first error third := by
  obtain ⟨further, turn, place, mistake, turns, slips, same⟩ := stumbles
  have word : Walks second [second.token] second.next := Walks.next flat
  refine ⟨goes.trans (.trans (.flat word) further), ?_⟩
  obtain rfl | behind := slips.apart
  · have before := word.toPasses.clears.trans slips.before
    refine ⟨second, place, mistake, goes, ⟨before, .inr ?_, slips.fits, slips.beyond⟩, same⟩
    have moved := word.position
    have further := slips.before.position_le
    rw [List.length_singleton] at moved
    omega
  · exact ⟨turn, place, mistake, goes.trans (.trans (.flat word) turns),
      ⟨slips.before, .inr behind, slips.fits, slips.beyond⟩, same⟩

end Stumbles

/-- A blame is a stumble at every depth. -/
theorem Blames.stumbles {depth : Nat} {cursor after : Cursor} {error : SyntaxError}
    (blames : Blames cursor error after) : Stumbles depth cursor error after := by
  obtain ⟨before, place, between, mistake, start, further, fits, same⟩ := blames
  exact ⟨.flat (start.trans further), cursor, place, mistake, .refl depth cursor,
    ⟨start.toPasses.clears, .inl rfl, fits, further.toPasses.clears⟩, same⟩

/-- A mistake at the end of a walk is a stumble. -/
theorem Walks.stumbles {depth : Nat} {cursor place : Cursor} {used : List Token}
    {mistake : Mistake} (walks : Walks cursor used place) (fits : mistake.Fits place.kind) :
    Stumbles depth cursor (place.error mistake) place := (walks.blames fits).stumbles

end Cursor

end Offside
