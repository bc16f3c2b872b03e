/-
This file proves that recovery after a mistake takes up the same token in two lists of tokens side
by side, also where it skips the first list to its end.
-/

import Offside.Proofs.Nesting
import Offside.Proofs.Parallel.Rules

namespace Offside

/-- A token that ends a line and marks no block is a terminator. -/
theorem Kind.isTerminator_of_endsLine {kind : Kind} (ends : kind.endsLine = true)
    (flat : kind.isBlockMark = false) : kind.isTerminator = true := by
  unfold endsLine at ends
  split at ends <;> simp_all [isBlockMark, isTerminator]

namespace Cursor

/-- A search that goes on before these tokens has a reason to stop where they end: they close the
blocks that are open, and a line ends there. -/
structure Halts (nesting : Nat) (ended : Bool) (tokens : List Token) : Prop where
  balanced : Balanced nesting tokens
  lined : ∀ last ∈ tokens.getLast?, last.kind.endsLine = true
  ended : tokens = [] → ended = true

namespace Halts

variable {nesting inner : Nat} {ended stopped : Bool} {token : Token} {rest : List Token}

/-- The reason to stop stays behind a token. -/
theorem tail (halts : Halts nesting ended (token :: rest)) (balanced : Balanced inner rest)
    (stops : rest = [] → stopped = true) : Halts inner stopped rest where
  balanced := balanced
  lined last present := by
    apply halts.lined
    rw [List.getLast?_cons, present]
    rfl
  ended := stops

/-- Behind an indent the search goes on one block deeper. -/
theorem indent (halts : Halts nesting ended (token :: rest)) (opens : token.kind = .indent) :
    Halts (nesting + 1) false rest := by
  have balanced := (balanced_indent opens).1 halts.balanced
  apply halts.tail balanced
  intro empty
  rw [empty] at balanced
  cases balanced

/-- Behind a dedent the search has left one block. -/
theorem dedent (halts : Halts nesting ended (token :: rest)) (closes : token.kind = .dedent)
    (more : nesting ≠ 1) : Halts (nesting - 1) false rest := by
  obtain ⟨positive, balanced⟩ := (balanced_dedent closes).1 halts.balanced
  apply halts.tail balanced
  intro empty
  rw [empty] at balanced
  have none : nesting - 1 = 0 := balanced
  omega

/-- Outside the marks of blocks, only a terminator ends a line. -/
theorem flat (halts : Halts nesting ended (token :: rest)) (flat : token.kind.isBlockMark = false) :
    Halts nesting token.kind.isTerminator rest := by
  apply halts.tail ((balanced_flat flat).1 halts.balanced)
  intro empty
  have ends := halts.lined token (by rw [empty]; rfl)
  exact Kind.isTerminator_of_endsLine ends flat

end Halts

variable {later : List Token} {first second : Cursor}

/-- The search takes up the same token in both lists. Where it skips the first one whole, it has a
reason to stop there. -/
theorem resume_matches {nesting : Nat} {ended : Bool} {tokens others : List Token}
    (pairs : List.Forall₂ Token.Matches tokens others)
    (halts : resume nesting ended tokens = [] → later = [] ∨ Halts nesting ended tokens) :
    ∃ left, resume nesting ended (others ++ later) = left ++ later ∧
      List.Forall₂ Token.Matches (resume nesting ended tokens) left := by
  fun_induction resume nesting ended tokens generalizing others with
  | case1 nesting ended =>
      cases pairs
      refine ⟨[], ?_, .nil⟩
      rw [List.nil_append]
      cases later with
      | nil => rfl
      | cons token rest =>
          obtain empty | halts := halts rfl
          · cases empty
          · have closed : nesting = 0 := halts.balanced
            rw [resume, if_pos ⟨closed, halts.ended rfl⟩]
  | case2 nesting ended token rest stops =>
      cases pairs with
      | cons pair pairs =>
          refine ⟨_, ?_, .cons pair pairs⟩
          rw [List.cons_append, resume, if_pos stops]
  | case3 nesting ended token rest goesOn opens inductionHypothesis =>
      cases pairs with
      | cons pair pairs =>
          obtain ⟨left, same, matched⟩ :=
            inductionHypothesis pairs fun empty => (halts empty).imp_right (·.indent opens)
          refine ⟨left, ?_, matched⟩
          rw [List.cons_append, resume, if_neg goesOn, pair.kind, opens]
          exact same
  | case4 ended token rest closes goesOn =>
      cases pairs with
      | cons pair pairs =>
          refine ⟨_, ?_, .cons pair pairs⟩
          rw [List.cons_append, resume, if_neg goesOn, pair.kind, closes]
          rfl
  | case5 ended token rest closes goesOn =>
      cases pairs with
      | cons pair pairs =>
          refine ⟨_, ?_, pairs⟩
          rw [List.cons_append, resume, if_neg goesOn, pair.kind, closes]
          rfl
  | case6 nesting ended token rest goesOn closes some more inductionHypothesis =>
      cases pairs with
      | cons pair pairs =>
          obtain ⟨left, same, matched⟩ :=
            inductionHypothesis pairs fun empty => (halts empty).imp_right (·.dedent closes more)
          refine ⟨left, ?_, matched⟩
          rw [List.cons_append, resume, if_neg goesOn, pair.kind, closes]
          simp only [if_neg some, if_neg more]
          exact same
  | case7 nesting ended token rest goesOn noIndent noDedent stops =>
      cases pairs with
      | @cons _ other _ others pair pairs =>
          refine ⟨other :: others, ?_, .cons pair pairs⟩
          rw [List.cons_append, resume, if_neg goesOn, pair.kind]
          split
          next opens => exact absurd opens noIndent
          next closes => exact absurd closes noDedent
          next => rw [if_pos stops]
  | case8 nesting ended token rest goesOn noIndent noDedent further inductionHypothesis =>
      cases pairs with
      | cons pair pairs =>
          have flat : token.kind.isBlockMark = false := by
            obtain opens | closes | flat := token.kind.blockMark_cases
            · exact absurd opens noIndent
            · exact absurd closes noDedent
            · exact flat
          obtain ⟨left, same, matched⟩ :=
            inductionHypothesis pairs fun empty => (halts empty).imp_right (·.flat flat)
          refine ⟨left, ?_, matched⟩
          rw [List.cons_append, resume, if_neg goesOn, pair.kind]
          split
          next opens => exact absurd opens noIndent
          next closes => exact absurd closes noDedent
          next =>
            rw [if_neg further]
            exact same

namespace Matches

/-- Cursors that match still match with a milestone each. -/
theorem mark (matches_ : first.Matches later second) (depth : Nat) :
    (first.mark depth).Matches later (second.mark depth) :=
  ⟨matches_.rest, matches_.position, matches_.errors⟩

/-- Cursors that match still match with an error of the same site each. -/
theorem note {error other : SyntaxError} (matches_ : first.Matches later second)
    (site : other.site = error.site) : (first.note error).Matches later (second.note other) where
  rest := matches_.rest
  position := matches_.position
  errors := by simp [Cursor.note, matches_.errors, site]

/-- The second cursor has the later tokens left as well. -/
theorem length (matches_ : first.Matches later second) :
    second.rest.length = first.rest.length + later.length := by
  obtain ⟨tokens, rest, pairs⟩ := matches_.rest
  rw [rest, List.length_append, pairs.length_eq]

end Matches

/-- Cursors at the same token close a list together. -/
theorem Agrees.closes (agrees : first.Agrees second) (depth : Nat) :
    second.closes depth = first.closes depth := by
  unfold Cursor.closes
  rw [agrees.kind]

/-- Outside every block the search after a mistake stops where lined tokens end. -/
theorem halts_recover {cursor : Cursor} (lined : cursor.Lined) (balanced : Balanced 0 cursor.rest)
    (more : cursor.rest ≠ []) :
    Halts (if cursor.kind = .indent then 1 else 0) cursor.kind.isTerminator cursor.next.rest := by
  obtain ⟨token, rest, tokens⟩ := List.exists_cons_of_ne_nil more
  have kind := kind_of_rest tokens
  have whole : Halts 0 false (token :: rest) := by
    rw [← tokens]
    exact ⟨balanced, lined, fun empty => absurd empty more⟩
  rw [next_rest, tokens, List.tail_cons, kind]
  obtain opens | closes | flat := token.kind.blockMark_cases
  · rw [opens]
    exact whole.indent opens
  · exact absurd ((balanced_dedent closes).1 whole.balanced).1 (Nat.lt_irrefl 0)
  · rw [if_neg (Kind.ne_of_isBlockMark_eq_false flat).1]
    exact whole.flat flat

/-- Recovery moves the position by the tokens that it leaves out. -/
theorem recover_position (cursor : Cursor) (depth : Nat) : (cursor.recover depth).position =
    cursor.position + (cursor.rest.length - (cursor.recover depth).rest.length) := by
  unfold recover
  split
  · omega
  · rfl

/-- Recovery takes both cursors to the same token, if the first one comes to a token or searches
outside every block. -/
theorem Matches.recover {depth : Nat} (matches_ : first.Matches later second)
    (open_ : first.Open later)
    (reached : (first.recover depth).Open later ∨ first.Lined ∧ Balanced 0 first.rest) :
    (first.recover depth).Matches later (second.recover depth) := by
  have agrees := matches_.agrees open_
  have same := agrees.closes depth
  cases ends : first.closes depth with
  | true => rwa [Cursor.recover, Cursor.recover, same, if_pos ends, if_pos ends]
  | false =>
      have more : first.rest ≠ [] := by
        apply rest_ne_nil
        intro eof
        simp [closes_iff.2 (.inl eof)] at ends
      obtain ⟨tokens, rest, pairs⟩ := (matches_.next open_).rest
      have halts : resume (if first.kind = .indent then 1 else 0) first.kind.isTerminator
          first.next.rest = [] → later = [] ∨ Halts (if first.kind = .indent then 1 else 0)
            first.kind.isTerminator first.next.rest := by
        intro empty
        obtain reached | ⟨lined, balanced⟩ := reached
        · rw [next_rest, ← recover_rest ends] at empty
          exact .inl (reached empty)
        · exact .inr (halts_recover lined balanced more)
      obtain ⟨left, resumed, matched⟩ := resume_matches pairs halts
      have one : (first.recover depth).rest = _ := recover_rest ends
      have two : (second.recover depth).rest = left ++ later := by
        rw [recover_rest (same.trans ends), agrees.kind, ← next_rest, rest, resumed]
      rw [← next_rest] at one
      rw [← one] at matched
      refine ⟨⟨left, two, matched⟩, ?_, ?_⟩
      · have before := matches_.length
        have after := congrArg List.length two
        rw [List.length_append, ← matched.length_eq] at after
        rw [recover_position, recover_position, matches_.position]
        omega
      · rw [recover_errors, recover_errors, matches_.errors]

end Cursor

end Offside
