/-
This file says what a run of a parser ensures, and how far it moves the cursor.
-/

import Offside.Grammar.Statement
import Mathlib.Data.List.TakeWhile

namespace Offside

namespace Cursor

@[ext]
theorem ext {first second : Cursor} (rest : first.rest = second.rest)
    (position : first.position = second.position) (endLine : first.endLine = second.endLine)
    (errors : first.errors = second.errors) (trail : first.trail = second.trail) :
    first = second := by
  cases first
  cases second
  simp_all

/-- The cursor moves over these tokens and changes nothing else. -/
structure Passes (cursor : Cursor) (used : List Token) (after : Cursor) : Prop where
  rest : cursor.rest = used ++ after.rest
  position : after.position = cursor.position + used.length
  endLine : after.endLine = cursor.endLine
  errors : after.errors = cursor.errors
  trail : after.trail = cursor.trail

namespace Passes

variable {first second third : Cursor} {used others : List Token}

@[simp]
theorem refl (cursor : Cursor) : Passes cursor [] cursor := ⟨rfl, rfl, rfl, rfl, rfl⟩

/-- Two passes in a row are one pass over the tokens of both. -/
theorem trans (start : Passes first used second) (further : Passes second others third) :
    Passes first (used ++ others) third where
  rest := by rw [start.rest, further.rest, List.append_assoc]
  position := by rw [further.position, start.position, List.length_append, Nat.add_assoc]
  endLine := by rw [further.endLine, start.endLine]
  errors := by rw [further.errors, start.errors]
  trail := by rw [further.trail, start.trail]

/-- The tokens that are passed determine where the cursor ends. -/
theorem unique (left : Passes first used second) (right : Passes first used third) :
    second = third := by
  apply Cursor.ext
  · exact List.append_cancel_left (left.rest.symm.trans right.rest)
  · rw [left.position, right.position]
  · rw [left.endLine, right.endLine]
  · rw [left.errors, right.errors]
  · rw [left.trail, right.trail]

/-- A pass shortens the rest by the tokens that it moves over. -/
theorem length (passes : Passes first used second) :
    second.rest.length + used.length = first.rest.length := by
  rw [passes.rest, List.length_append, Nat.add_comm]

end Passes

/-- A cursor that is not at the end moves over its token. -/
theorem passes_next {cursor : Cursor} (more : cursor.kind ≠ .eof) :
    Passes cursor [cursor.token] cursor.next := by
  cases tokens : cursor.rest with
  | nil => exact absurd (by simp [kind, token, tokens, Token.layout]) more
  | cons first others => constructor <;> simp [next, token, tokens]

/-- The cursor stands at the first token of the rest. -/
theorem token_of_rest {cursor : Cursor} {token : Token} {rest : List Token}
    (tokens : cursor.rest = token :: rest) : cursor.token = token := by
  rw [Cursor.token, tokens]

/-- The cursor sees the kind of the first token of the rest. -/
theorem kind_of_rest {cursor : Cursor} {token : Token} {rest : List Token}
    (tokens : cursor.rest = token :: rest) : cursor.kind = token.kind := by
  rw [kind, token_of_rest tokens]

/-- One step passes the first token of the rest. -/
theorem next_of_rest {cursor : Cursor} {token : Token} {rest : List Token}
    (tokens : cursor.rest = token :: rest) : Passes cursor [token] cursor.next := by
  constructor <;> simp [next, tokens]

/-- These are the tokens before the end of the script. -/
def script (tokens : List Token) : List Token := tokens.takeWhile fun token => !isEnd token

theorem ofTokens_rest (tokens : List Token) : (ofTokens tokens).rest = script tokens := rfl

/-- The script is the start of the tokens. -/
theorem script_initial (tokens : List Token) : script tokens <+: tokens :=
  List.takeWhile_prefix _

/-- No token of the script is the end. -/
theorem script_goesOn (tokens : List Token) : ∀ token ∈ script tokens, token.kind ≠ .eof := by
  intro token member
  have goesOn := List.mem_takeWhile_imp member
  simpa [isEnd] using goesOn

/-- Tokens without an end stand whole before that of the tokens after them. -/
theorem script_append {tokens : List Token} (goesOn : ∀ token ∈ tokens, token.kind ≠ .eof)
    (later : List Token) : script (tokens ++ later) = tokens ++ script later := by
  apply List.takeWhile_append_of_pos
  intro token member
  simp [isEnd, goesOn token member]

/-- The tokens that a cursor has passed from the start are those before its position. -/
theorem Passes.take_position {tokens used : List Token} {after : Cursor}
    (passes : Passes (ofTokens tokens) used after) : tokens.take after.position = used := by
  have start : used <+: tokens := (passes.rest ▸ List.prefix_append _ _ : used <+:
    (ofTokens tokens).rest).trans (script_initial tokens)
  have position : after.position = used.length := passes.position.trans (Nat.zero_add _)
  rw [position]
  exact (List.prefix_iff_eq_take.1 start).symm

/-- This is the kind of the first token, or of the end. -/
def headKind (tokens : List Token) : Kind := (tokens.head?.map Token.kind).getD .eof

/-- The first kind is the same with and without the end of the script. -/
theorem headKind_script (tokens : List Token) : headKind (script tokens) = headKind tokens := by
  cases tokens with
  | nil => rfl
  | cons token rest =>
      by_cases ends : token.kind = .eof
      · simp [script, isEnd, headKind, ends]
      · simp [script, isEnd, headKind, ends]

/-- The cursor sees the first kind of the rest, or the end. -/
theorem kind_eq (cursor : Cursor) : cursor.kind = headKind cursor.rest := by
  unfold kind token headKind
  cases cursor.rest <;> rfl

/-- A cursor can pass any tokens that its rest starts with. -/
theorem exists_passes {cursor : Cursor} {used later : List Token}
    (tokens : cursor.rest = used ++ later) :
    ∃ after, Passes cursor used after ∧ after.rest = later :=
  ⟨{ cursor with rest := later, position := cursor.position + used.length },
    ⟨tokens, rfl, rfl, rfl, rfl⟩, rfl⟩

/-- After a pass exactly the other tokens are left. -/
theorem Passes.rest_eq {cursor after : Cursor} {used later : List Token}
    (passes : Passes cursor used after) (tokens : cursor.rest = used ++ later) :
    after.rest = later :=
  List.append_cancel_left (passes.rest.symm.trans tokens)

end Cursor

/-- A terminator is a line break or a semicolon. -/
theorem Kind.isTerminator_iff {kind : Kind} :
    kind.isTerminator = true ↔ kind = .newline ∨ kind = .symbol .semicolon := by
  unfold isTerminator
  split <;> simp_all

namespace Parser

variable {α β : Type} {cursor : Cursor}
  {good : α → Cursor → Prop} {bad : SyntaxError → Cursor → Prop}

/-- A run that succeeds ends in a good way, and one that stops at a mistake in a bad way. -/
def Ensures (parser : Parser α) (cursor : Cursor) (good : α → Cursor → Prop)
    (bad : SyntaxError → Cursor → Prop) : Prop :=
  match parser cursor with
  | .ok value after => good value after
  | .error error after => bad error after

/-- A run ensures whatever follows from what it ensures. -/
theorem Ensures.mono {parser : Parser α} {good' : α → Cursor → Prop}
    {bad' : SyntaxError → Cursor → Prop} (ensures : Ensures parser cursor good bad)
    (better : ∀ value after, good value after → good' value after)
    (worse : ∀ error after, bad error after → bad' error after) :
    Ensures parser cursor good' bad' := by
  unfold Ensures at *
  cases run : parser cursor with
  | ok value after =>
      rw [run] at ensures
      exact better value after ensures
  | error error after =>
      rw [run] at ensures
      exact worse error after ensures

/-- What a run ensures of success holds when it succeeds. -/
theorem Ensures.ok {parser : Parser α} {value : α} {after : Cursor}
    (ensures : Ensures parser cursor good bad) (run : parser cursor = .ok value after) :
    good value after := by
  unfold Ensures at ensures
  rwa [run] at ensures

/-- What a run ensures of a mistake holds when it stops at one. -/
theorem Ensures.error {parser : Parser α} {error : SyntaxError} {after : Cursor}
    (ensures : Ensures parser cursor good bad) (run : parser cursor = .error error after) :
    bad error after := by
  unfold Ensures at ensures
  rwa [run] at ensures

/-- A run that cannot stop at a mistake succeeds. -/
theorem Ensures.succeeds {parser : Parser α}
    (ensures : Ensures parser cursor good fun _ _ => False) :
    ∃ value after, parser cursor = .ok value after ∧ good value after := by
  unfold Ensures at ensures
  cases run : parser cursor with
  | ok value after =>
      rw [run] at ensures
      exact ⟨value, after, rfl, ensures⟩
  | error error after =>
      rw [run] at ensures
      exact ensures.elim

/-- A run that cannot succeed stops at a mistake. -/
theorem Ensures.fails {parser : Parser α}
    (ensures : Ensures parser cursor (fun _ _ => False) bad) :
    ∃ error after, parser cursor = .error error after ∧ bad error after := by
  unfold Ensures at ensures
  cases run : parser cursor with
  | ok value after =>
      rw [run] at ensures
      exact ensures.elim
  | error error after =>
      rw [run] at ensures
      exact ⟨error, after, rfl, ensures⟩

@[simp]
theorem ensures_pure {value : α} : Ensures (pure value) cursor good bad ↔ good value cursor :=
  Iff.rfl

/-- A sequence ensures what its second part ensures wherever the first one ends. -/
@[simp]
theorem ensures_bind {parser : Parser α} {next : α → Parser β} {good : β → Cursor → Prop} :
    Ensures (parser >>= next) cursor good bad ↔
      Ensures parser cursor (fun value after => Ensures (next value) after good bad) bad := by
  change (match EStateM.bind parser next cursor with
    | .ok value after => good value after
    | .error error after => bad error after) ↔ _
  unfold EStateM.bind Ensures
  cases parser cursor <;> rfl

/-- A mapped run ensures the outcome of the mapped value. -/
@[simp]
theorem ensures_map {parser : Parser α} {transform : α → β} {good : β → Cursor → Prop} :
    Ensures (transform <$> parser) cursor good bad ↔
      Ensures parser cursor (fun value after => good (transform value) after) bad := by
  change (match EStateM.map transform parser cursor with
    | .ok value after => good value after
    | .error error after => bad error after) ↔ _
  unfold EStateM.map Ensures
  cases parser cursor <;> rfl

/-- A choice ensures what each branch ensures under its condition. -/
theorem ensures_ite {condition : Prop} [Decidable condition] {yes no : Parser α} :
    Ensures (if condition then yes else no) cursor good bad ↔
      (condition → Ensures yes cursor good bad) ∧ (¬condition → Ensures no cursor good bad) := by
  by_cases holds : condition <;> simp [holds]

@[simp]
theorem ensures_peek {good : Kind → Cursor → Prop} :
    Ensures peek cursor good bad ↔ good cursor.kind cursor := Iff.rfl

@[simp]
theorem ensures_here {good : Cursor → Cursor → Prop} :
    Ensures here cursor good bad ↔ good cursor cursor := Iff.rfl

@[simp]
theorem ensures_take {good : Token → Cursor → Prop} :
    Ensures take cursor good bad ↔ good cursor.token cursor.next := Iff.rfl

@[simp]
theorem ensures_skip {good : Unit → Cursor → Prop} :
    Ensures skip cursor good bad ↔ good () cursor.next := Iff.rfl

@[simp]
theorem ensures_blame {mistake : Mistake} :
    Ensures (blame mistake) cursor good bad ↔ bad (cursor.error mistake) cursor := Iff.rfl

@[simp]
theorem ensures_blameAt {place : Cursor} {mistake : Mistake} :
    Ensures (blameAt place mistake) cursor good bad ↔ bad (place.error mistake) cursor := Iff.rfl

/-- A token of the accepted kind is passed, and any other one stays. -/
@[simp]
theorem ensures_accept {kind : Kind} {good : Bool → Cursor → Prop} :
    Ensures (accept kind) cursor good bad ↔
      (cursor.kind = kind → good true cursor.next) ∧ (cursor.kind ≠ kind → good false cursor) := by
  simp [accept, ensures_ite]

/-- A token of the expected kind is passed, and any other one is a mistake. -/
@[simp]
theorem ensures_expect {kind : Kind} {requirement : Requirement} {good : Token → Cursor → Prop} :
    Ensures (expect kind requirement) cursor good bad ↔
      (cursor.kind = kind → good cursor.token cursor.next) ∧
        (cursor.kind ≠ kind → bad (cursor.error (.missing requirement cursor.kind)) cursor) := by
  simp [expect, ensures_ite]

/-- A terminator is passed, and any other token is a mistake. -/
@[simp]
theorem ensures_terminator {requirement : Requirement} {good : Unit → Cursor → Prop} :
    Ensures (terminator requirement) cursor good bad ↔
      (cursor.kind.isTerminator = true → good () cursor.next) ∧
        (cursor.kind.isTerminator = false →
          bad (cursor.error (.missing requirement cursor.kind)) cursor) := by
  simp only [terminator, ensures_bind, ensures_peek, ensures_ite, ← Kind.isTerminator_iff,
    ensures_skip, ensures_blame, Bool.not_eq_true]

section Steps

variable {token : Token} {later : List Token} {good : β → Cursor → Prop}

/-- A run that skips a token goes on behind it. -/
theorem skip_step {next : Unit → Parser β} (tokens : cursor.rest = token :: later)
    (continues : ∀ after, cursor.Passes [token] after → after.rest = later →
      Ensures (next ()) after good bad) : Ensures (skip >>= next) cursor good bad := by
  have passes := Cursor.next_of_rest tokens
  rw [ensures_bind, ensures_skip]
  exact continues cursor.next passes (passes.rest_eq tokens)

/-- An expected token that is present is passed, and the run goes on behind it. -/
theorem expect_step {kind : Kind} {requirement : Requirement} {next : Token → Parser β}
    (tokens : cursor.rest = token :: later) (present : token.kind = kind)
    (continues : ∀ after, cursor.Passes [token] after → after.rest = later →
      Ensures (next token) after good bad) :
    Ensures (expect kind requirement >>= next) cursor good bad := by
  have passes := Cursor.next_of_rest tokens
  have here := (Cursor.kind_of_rest tokens).trans present
  rw [ensures_bind, ensures_expect, Cursor.token_of_rest tokens]
  exact ⟨fun _ => continues _ passes (passes.rest_eq tokens), fun differs => absurd here differs⟩

/-- An optional token that is present is passed, and the run goes on behind it. -/
theorem accept_step {kind : Kind} {next : Bool → Parser β} (tokens : cursor.rest = token :: later)
    (present : token.kind = kind)
    (continues : ∀ after, cursor.Passes [token] after → after.rest = later →
      Ensures (next true) after good bad) :
    Ensures (accept kind >>= next) cursor good bad := by
  have passes := Cursor.next_of_rest tokens
  have here := (Cursor.kind_of_rest tokens).trans present
  rw [ensures_bind, ensures_accept]
  exact ⟨fun _ => continues _ passes (passes.rest_eq tokens), fun differs => absurd here differs⟩

/-- An optional token that is absent leaves the cursor where it is. -/
theorem accept_stay {kind : Kind} {next : Bool → Parser β} (absent : cursor.kind ≠ kind)
    (continues : Ensures (next false) cursor good bad) :
    Ensures (accept kind >>= next) cursor good bad := by
  rw [ensures_bind, ensures_accept]
  exact ⟨fun present => absurd present absent, fun _ => continues⟩

/-- A terminator that is present is passed, and the run goes on behind it. -/
theorem terminator_step {requirement : Requirement} {next : Unit → Parser β}
    (tokens : cursor.rest = token :: later) (stop : token.kind.isTerminator = true)
    (continues : ∀ after, cursor.Passes [token] after → after.rest = later →
      Ensures (next ()) after good bad) :
    Ensures (terminator requirement >>= next) cursor good bad := by
  have passes := Cursor.next_of_rest tokens
  have here : cursor.kind.isTerminator = true := by rwa [Cursor.kind_of_rest tokens]
  rw [ensures_bind, ensures_terminator]
  refine ⟨fun _ => continues _ passes (passes.rest_eq tokens), fun goesOn => ?_⟩
  rw [here] at goesOn
  cases goesOn

end Steps

/-- Before the later tokens, the parser gives this value for exactly the used ones. -/
def Finds (parser : Parser α) (used : List Token) (value : α) (later : List Token) : Prop :=
  ∀ cursor : Cursor, cursor.rest = used ++ later →
    Ensures parser cursor (fun found after => found = value ∧ cursor.Passes used after)
      fun _ _ => False

/-- What comes after a found value starts where its tokens end. -/
theorem Finds.ensures {parser : Parser α} {used later : List Token} {value : α} {after : Cursor}
    (finds : Finds parser used value later) (tokens : cursor.rest = used ++ later)
    (passes : cursor.Passes used after) (continues : good value after) :
    Ensures parser cursor good bad := by
  apply (finds cursor tokens).mono
  · rintro found other ⟨rfl, same⟩
    rwa [same.unique passes]
  · exact fun _ _ impossible => impossible.elim

/-- After a parser that finds its value, the run goes on behind the used tokens. -/
theorem Finds.step {parser : Parser α} {next : α → Parser β} {used later : List Token} {value : α}
    {good : β → Cursor → Prop} (finds : Finds parser used value later)
    (tokens : cursor.rest = used ++ later)
    (continues : ∀ after, cursor.Passes used after → after.rest = later →
      Ensures (next value) after good bad) : Ensures (parser >>= next) cursor good bad := by
  obtain ⟨after, passes, rest⟩ := Cursor.exists_passes tokens
  rw [ensures_bind]
  exact finds.ensures tokens passes (continues after passes rest)

end Parser

end Offside
