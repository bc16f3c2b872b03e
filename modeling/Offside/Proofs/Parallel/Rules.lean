/-
This file runs a parser on two lists of tokens side by side. The layout may put the tokens of the
second list on other lines, and this list may go on where the first one ends.
-/

import Offside.Proofs.Expression.Budget
import Offside.Proofs.Layout
import Mathlib.Data.List.Forall2

namespace Offside

/-- The same token. If it comes from the layout, it may stand on another line. -/
structure Token.Matches (first second : Token) : Prop where
  kind : second.kind = first.kind
  lexeme : second.lexeme = first.lexeme
  literal : second.literal = first.literal
  line : first.kind.isLayout = false → second.line = first.line

namespace Token.Matches

variable {first second : Token}

theorem refl (token : Token) : token.Matches token := ⟨rfl, rfl, rfl, fun _ => rfl⟩

/-- Name tokens that match make the same name. -/
theorem name (same : first.Matches second) (isName : first.kind = .name) :
    Name.ofToken second = .ofToken first := by
  unfold Name.ofToken
  rw [same.lexeme, same.line (by rw [isName]; rfl)]

end Token.Matches

namespace SyntaxError

/-- This is what the error blames and where, apart from the line. -/
def site (error : SyntaxError) : Mistake × Nat := (error.mistake, error.position)

/-- The error blames the token at this position, or the one before it that was taken for a
parameter. -/
def StandsAt (error : SyntaxError) (position : Nat) : Prop :=
  error.position = position ∨
    (∃ found, error.mistake = .parameter found) ∧ error.position + 1 = position

end SyntaxError

namespace Cursor

/-- The second cursor stands before the same tokens, and the later ones come after them. -/
structure Matches (later : List Token) (first second : Cursor) : Prop where
  rest : ∃ tokens, second.rest = tokens ++ later ∧ List.Forall₂ Token.Matches first.rest tokens
  position : second.position = first.position
  errors : second.errors.map SyntaxError.site = first.errors.map SyntaxError.site

/-- Two cursors that match here stand before the same token. -/
def Open (later : List Token) (cursor : Cursor) : Prop := cursor.rest = [] → later = []

/-- The last of the tokens ends its line. -/
def Lined (cursor : Cursor) : Prop := ∀ last ∈ cursor.rest.getLast?, last.kind.endsLine = true

/-- The same token stands under both cursors, at the same position. -/
structure Agrees (first second : Cursor) : Prop where
  token : first.token.Matches second.token
  position : second.position = first.position

variable {later : List Token} {first second after : Cursor}

theorem Agrees.refl (cursor : Cursor) : cursor.Agrees cursor := ⟨.refl _, rfl⟩

theorem Agrees.kind (agrees : first.Agrees second) : second.kind = first.kind := agrees.token.kind

/-- Tokens of the text itself stand on the same line. -/
theorem Agrees.line {kind : Kind} (agrees : first.Agrees second) (same : first.kind = kind)
    (written : kind.isLayout = false) : second.token.line = first.token.line :=
  agrees.token.line (same ▸ written : first.kind.isLayout = false)

/-- A mistake at both cursors has one site. -/
theorem Agrees.site (agrees : first.Agrees second) (mistake : Mistake) :
    (second.error mistake).site = (first.error mistake).site :=
  congrArg (Prod.mk mistake) agrees.position

/-- Before the end some token is left. -/
theorem rest_ne_nil (more : first.kind ≠ .eof) : first.rest ≠ [] := by
  intro empty
  exact more (Parser.kind_of_empty empty)

theorem Open.of_rest (more : first.rest ≠ []) : first.Open later := fun empty => absurd empty more

/-- Where the cursor has come to an open place, it came from one. -/
theorem Open.of_suffix (open_ : after.Open later) (moved : after.rest <:+ first.rest) :
    first.Open later := by
  intro empty
  rw [empty] at moved
  exact open_ (List.suffix_nil.1 moved)

/-- An end of lined tokens is lined. -/
theorem Lined.of_suffix (lined : first.Lined) (moved : after.rest <:+ first.rest) : after.Lined := by
  obtain ⟨used, whole⟩ := moved
  intro last present
  apply lined
  rw [← whole, List.getLast?_append, present]
  rfl

/-- Lined tokens do not end after one that ends no line. -/
theorem Lined.rest_ne_nil {used : List Token} (lined : first.Lined)
    (passes : first.Passes used after) (some : used ≠ [])
    (unended : ∀ token ∈ used, token.kind.endsLine = false) : after.rest ≠ [] := by
  intro empty
  have last : (used.getLast some).kind.endsLine = true := by
    apply lined
    simp [passes.rest, empty, List.getLast?_eq_some_getLast some]
  rw [unended _ (List.getLast_mem some)] at last
  cases last

/-- Cursors that match stand at the same token. -/
theorem Matches.agrees (matches_ : first.Matches later second) (open_ : first.Open later) :
    first.Agrees second := by
  obtain ⟨tokens, rest, pairs⟩ := matches_.rest
  refine ⟨?_, matches_.position⟩
  cases left : first.rest with
  | nil =>
      rw [left] at pairs
      cases pairs
      rw [open_ left] at rest
      have ends : second.rest = [] := rest
      unfold token
      rw [left, ends]
      exact ⟨rfl, rfl, rfl, fun written => by cases written⟩
  | cons head tail =>
      rw [left] at pairs
      cases pairs with
      | cons pair pairs =>
          rw [token_of_rest left, token_of_rest rest]
          exact pair

/-- Cursors that match still match one step later. -/
theorem Matches.next (matches_ : first.Matches later second) (open_ : first.Open later) :
    first.next.Matches later second.next := by
  obtain ⟨tokens, rest, pairs⟩ := matches_.rest
  cases left : first.rest with
  | nil =>
      rw [left] at pairs
      cases pairs
      rw [open_ left] at rest
      have ends : second.rest = [] := rest
      rwa [Cursor.next, Cursor.next, left, ends]
  | cons head tail =>
      rw [left] at pairs
      cases pairs with
      | @cons _ _ _ others pair pairs =>
          have right : second.rest = _ :: (others ++ later) := rest
          rw [Cursor.next, Cursor.next, left, right]
          refine ⟨⟨others, rfl, pairs⟩, ?_, matches_.errors⟩
          exact congrArg (· + 1) matches_.position

/-- A token that is not there is not there for the second cursor either, unless only this one goes
on and does so with that token. -/
theorem Matches.kind_ne {kind : Kind} (matches_ : first.Matches later second)
    (absent : first.kind ≠ kind) (beyond : first.Open later ∨ headKind later ≠ kind) :
    second.kind ≠ kind := by
  obtain open_ | differs := beyond
  · rwa [(matches_.agrees open_).kind]
  obtain ⟨tokens, rest, pairs⟩ := matches_.rest
  cases left : first.rest with
  | nil =>
      rw [left] at pairs
      cases pairs
      have same : second.rest = later := rest
      rwa [kind_eq, same]
  | cons head tail =>
      have open_ : first.Open later := .of_rest (by simp [left])
      rwa [(matches_.agrees open_).kind]

end Cursor

namespace Parser

open Cursor

variable {α β : Type} {later : List Token} {firm started : Bool} {first second : Cursor}

/-- The parser succeeds only where tokens are left. -/
def Needs (parser : Parser α) : Prop :=
  ∀ cursor : Cursor, cursor.rest = [] → ∀ value after, parser cursor ≠ .ok value after

/-- The second run does what the first one does, as long as that one has not come to the end of its
tokens. A firm parser may end its run there. A run that fails at the end of lined tokens blames the
last place. -/
structure Parallel (later : List Token) (firm : Bool) (left right : Parser α)
    (first second : Cursor) : Prop where
  onward : Ensures left first (fun _ after => after.rest <:+ first.rest)
    fun error after => after.rest <:+ first.rest ∧
      (first.Lined → after.rest = [] → error.StandsAt after.position)
  ok : ∀ {value after}, left first = .ok value after → (firm = false → after.Open later) →
    first.Matches later second → ∃ last, right second = .ok value last ∧ after.Matches later last
  error : ∀ {error after}, left first = .error error after → after.Open later →
    first.Matches later second → ∃ other last, right second = .error other last ∧
      other.site = error.site ∧ after.Matches later last

theorem bind_of_ok {parser : Parser α} {next : α → Parser β} {value : α} {after : Cursor}
    (run : parser first = .ok value after) : (parser >>= next) first = next value after := by
  change EStateM.bind parser next first = _
  rw [EStateM.bind, run]

theorem bind_of_error {parser : Parser α} {next : α → Parser β} {error : SyntaxError}
    {after : Cursor} (run : parser first = .error error after) :
    (parser >>= next) first = .error error after := by
  change EStateM.bind parser next first = _
  rw [EStateM.bind, run]

/-- What comes after an expected token depends on the kind at the cursor. -/
theorem expect_bind (kind : Kind) (requirement : Requirement) (next : Token → Parser β)
    (cursor : Cursor) : (expect kind requirement >>= next) cursor =
      if cursor.kind = kind then next cursor.token cursor.next
      else .error (cursor.error (.missing requirement cursor.kind)) cursor := by
  by_cases present : cursor.kind = kind <;>
    simp [expect, peek, take, blame, bind, EStateM.bind, present]

/-- What comes after a terminator depends on the kind at the cursor. -/
theorem terminator_bind (requirement : Requirement) (next : Unit → Parser β) (cursor : Cursor) :
    (terminator requirement >>= next) cursor =
      if cursor.kind.isTerminator then next () cursor.next
      else .error (cursor.error (.missing requirement cursor.kind)) cursor := by
  cases stop : cursor.kind.isTerminator with
  | true => simp [terminator, peek, skip, bind, EStateM.bind, Kind.isTerminator_iff.1 stop]
  | false =>
      have goesOn := mt Kind.isTerminator_iff.2 (by rw [stop]; simp)
      simp [terminator, peek, blame, bind, EStateM.bind, goesOn]

namespace Needs

/-- A sequence needs tokens when its first part does. -/
theorem bind {parser : Parser α} {next : α → Parser β} (needs : Needs parser) :
    Needs (parser >>= next) := by
  intro cursor empty value after run
  cases start : parser cursor with
  | ok first middle => exact needs cursor empty first middle start
  | error error middle =>
      rw [bind_of_error start] at run
      cases run

theorem map {parser : Parser α} (needs : Needs parser) (transform : α → β) :
    Needs (transform <$> parser) := by
  rw [map_eq_pure_bind]
  exact needs.bind

/-- What only moves on leaves the need to what comes next. -/
theorem after {parser : Parser α} {next : α → Parser β} (onward : ∀ cursor, Onward parser cursor)
    (needs : ∀ value, Needs (next value)) : Needs (parser >>= next) := by
  intro cursor empty value last run
  cases start : parser cursor with
  | ok first middle =>
      have moved := (onward cursor).ok start
      rw [empty] at moved
      rw [bind_of_ok start] at run
      exact needs first middle (List.suffix_nil.1 moved) value last run
  | error error middle =>
      rw [bind_of_error start] at run
      cases run

/-- A parser that expects a token needs one. -/
theorem expect {kind : Kind} (more : kind ≠ .eof) (requirement : Requirement) :
    Needs (expect kind requirement) := by
  intro cursor empty value after run
  have ends := kind_of_empty empty
  have fails : Ensures (Parser.expect kind requirement) cursor (fun _ _ => False) fun _ _ => True :=
    ensures_expect.2 ⟨fun same => more (same.symm.trans ends), fun _ => trivial⟩
  exact fails.ok run

/-- A parser that expects a terminator needs a token. -/
theorem terminator (requirement : Requirement) : Needs (terminator requirement) := by
  intro cursor empty value after run
  have ends := kind_of_empty empty
  have fails : Ensures (Parser.terminator requirement) cursor (fun _ _ => False) fun _ _ => True :=
    ensures_terminator.2 ⟨fun stop => by simp [ends, Kind.isTerminator] at stop, fun _ => trivial⟩
  exact fails.ok run

/-- An expression needs a token. -/
theorem expression : Needs expression := by
  intro cursor empty value after run
  have fails := expressionWithin_of_empty cursor.rest.length empty
  unfold Parser.expression at run
  rw [fails] at run
  cases run

end Needs

namespace Parallel

theorem pure (value : α) :
    Parallel later firm (pure value : Parser α) (Pure.pure value) first second where
  onward := List.suffix_rfl
  ok run _ matches_ := by
    cases run
    exact ⟨second, rfl, matches_⟩
  error run := by cases run

/-- A mistake on the first list is a mistake on the second. -/
theorem blame (mistake : Mistake) :
    Parallel later firm (blame mistake : Parser α) (Parser.blame mistake) first second where
  onward := ⟨List.suffix_rfl, fun _ _ => .inl rfl⟩
  ok run := by cases run
  error run _ matches_ := by
    cases run
    refine ⟨_, second, rfl, ?_, matches_⟩
    exact congrArg (Prod.mk mistake) matches_.position

/-- The blamed place is the same for both, and it is not far back. -/
theorem blameAt {place other : Cursor} (agrees : place.Agrees other) (mistake : Mistake)
    (near : first.Lined → first.rest = [] → (place.error mistake).StandsAt first.position) :
    Parallel later firm (blameAt place mistake : Parser α) (Parser.blameAt other mistake) first
      second where
  onward := ⟨List.suffix_rfl, near⟩
  ok run := by cases run
  error run _ matches_ := by
    cases run
    exact ⟨_, second, rfl, agrees.site mistake, matches_⟩

/-- Parsers that do the same run in parallel as well. -/
theorem congr {left right start other : Parser α}
    (parallel : Parallel later firm left right first second)
    (one : start first = left first) (two : other second = right second) :
    Parallel later firm start other first second where
  onward := by
    have onward := parallel.onward
    unfold Ensures at *
    rwa [one]
  ok run := by
    rw [one] at run
    rw [two]
    exact parallel.ok run
  error run := by
    rw [one] at run
    rw [two]
    exact parallel.error run

/-- A parser that stops where tokens are left is firm. -/
theorem of_more {left right : Parser α} (parallel : Parallel later false left right first second)
    (more : ∀ value after, left first = .ok value after → after.rest ≠ []) :
    Parallel later firm left right first second where
  onward := parallel.onward
  ok {value after} run _ := parallel.ok run fun _ => .of_rest (more value after run)
  error := parallel.error

/-- Nothing has to be shown where the first cursor is at the end and the second one is not. -/
theorem of_open {left right : Parser α}
    (onward : Ensures left first (fun _ after => after.rest <:+ first.rest)
      fun error after => after.rest <:+ first.rest ∧
        (first.Lined → after.rest = [] → error.StandsAt after.position))
    (needs : firm = true → Needs left)
    (opened : first.Open later → first.Matches later second →
      Parallel later firm left right first second) :
    Parallel later firm left right first second where
  onward := onward
  ok {value after} run reached matches_ := by
    have open_ : first.Open later := by
      cases firm with
      | false => exact (reached rfl).of_suffix (onward.ok run)
      | true => exact .of_rest fun empty => needs rfl first empty value after run
    exact (opened open_ matches_).ok run reached matches_
  error run reached matches_ :=
    (opened (reached.of_suffix (onward.error run).1) matches_).error run reached matches_

/-- Sequences run in parallel when their parts do. -/
theorem bind {left right : Parser α} {next other : α → Parser β}
    (start : Parallel later started left right first second)
    (further : ∀ value after last, left first = .ok value after →
      Parallel later firm (next value) (other value) after last)
    (needs : firm = true → started = true ∨ ∀ value, Needs (next value)) :
    Parallel later firm (left >>= next) (right >>= other) first second where
  onward := by
    rw [ensures_bind]
    cases run : left first with
    | error error after =>
        have ends := start.onward.error run
        unfold Ensures
        rw [run]
        exact ends
    | ok value after =>
        have moved := start.onward.ok run
        have rest := (further value after second run).onward
        unfold Ensures
        rw [run]
        apply rest.mono
        · exact fun _ _ onward => onward.trans moved
        · rintro error last ⟨onward, stands⟩
          exact ⟨onward.trans moved, fun lined => stands (lined.of_suffix moved)⟩
  ok {value after} run reached matches_ := by
    cases begun : left first with
    | error error middle =>
        rw [bind_of_error begun] at run
        cases run
    | ok found middle =>
        rw [bind_of_ok begun] at run
        have passed : started = false → middle.Open later := by
          intro loose
          cases firm with
          | false =>
              have moved := (further found middle second begun).onward.ok run
              exact (reached rfl).of_suffix moved
          | true =>
              obtain same | needs := needs rfl
              · rw [same] at loose
                cases loose
              · exact .of_rest fun empty => needs found middle empty value after run
        obtain ⟨last, same, matched⟩ := start.ok begun passed matches_
        rw [bind_of_ok same]
        exact (further found middle last begun).ok run reached matched
  error {error after} run reached matches_ := by
    cases begun : left first with
    | error found middle =>
        rw [bind_of_error begun] at run
        cases run
        obtain ⟨other, last, same, site, matched⟩ := start.error begun reached matches_
        exact ⟨other, last, bind_of_error same, site, matched⟩
    | ok found middle =>
        rw [bind_of_ok begun] at run
        have moved := ((further found middle second begun).onward.error run).1
        obtain ⟨last, same, matched⟩ := start.ok begun (fun _ => reached.of_suffix moved) matches_
        rw [bind_of_ok same]
        exact (further found middle last begun).error run reached matched

/-- An earlier place is blamed only where more tokens are left. -/
theorem blameBehind {left right : Parser α} {place other : Cursor} (agrees : place.Agrees other)
    (mistake : Mistake) (start : Parallel later started left right first second)
    (more : ∀ value after, left first = .ok value after → first.Lined → after.rest ≠ []) :
    Parallel later firm (left >>= fun _ => (Parser.blameAt place mistake : Parser β))
      (right >>= fun _ => Parser.blameAt other mistake) first second where
  onward := by
    rw [ensures_bind]
    cases run : left first with
    | error error after =>
        have ends := start.onward.error run
        unfold Ensures
        rwa [run]
    | ok value after =>
        have moved := start.onward.ok run
        unfold Ensures
        rw [run]
        exact ⟨moved, fun lined empty => absurd empty (more value after run lined)⟩
  ok run := by
    cases begun : left first with
    | error error middle =>
        rw [bind_of_error begun] at run
        cases run
    | ok found middle =>
        rw [bind_of_ok begun] at run
        cases run
  error run reached matches_ := by
    cases begun : left first with
    | error found middle =>
        rw [bind_of_error begun] at run
        cases run
        obtain ⟨other, last, same, site, matched⟩ := start.error begun reached matches_
        exact ⟨other, last, bind_of_error same, site, matched⟩
    | ok found middle =>
        rw [bind_of_ok begun] at run
        cases run
        obtain ⟨last, same, matched⟩ := start.ok begun (fun _ => reached) matches_
        exact ⟨_, last, bind_of_ok same, agrees.site mistake, matched⟩

/-- Mapped parsers run in parallel when the parsers do. -/
theorem map {left right : Parser α} (transform : α → β)
    (start : Parallel later firm left right first second) :
    Parallel later firm (transform <$> left) (transform <$> right) first second := by
  rw [map_eq_pure_bind, map_eq_pure_bind]
  exact start.bind (fun _ _ _ _ => .pure _) fun firm => .inl firm

/-- Parsers that look at the cursor run in parallel from cursors that agree. -/
theorem here {next other : Cursor → Parser β}
    (further : ∀ place, first.Agrees place →
      Parallel later firm (next first) (other place) first second)
    (needs : firm = true → Needs (Parser.here >>= next)) :
    Parallel later firm (Parser.here >>= next) (Parser.here >>= other) first second := by
  apply of_open
  · exact ensures_bind.2 (further first (.refl first)).onward
  · exact needs
  · intro open_ matches_
    have same := further second (matches_.agrees open_)
    exact ⟨ensures_bind.2 same.onward, fun run => same.ok run, fun run => same.error run⟩

/-- Parsers that look at the next kind run in parallel from the same kind. -/
theorem peek {next other : Kind → Parser β}
    (further : Parallel later firm (next first.kind) (other first.kind) first second)
    (needs : firm = true → Needs (Parser.peek >>= next)) :
    Parallel later firm (Parser.peek >>= next) (Parser.peek >>= other) first second := by
  apply of_open
  · exact ensures_bind.2 further.onward
  · exact needs
  · intro open_ matches_
    have kind := (matches_.agrees open_).kind
    refine ⟨ensures_bind.2 further.onward, ?_, ?_⟩
    · intro value after run reached _
      have same : (Parser.peek >>= other) second = other first.kind second := by
        rw [← kind]
        rfl
      rw [same]
      exact further.ok run reached matches_
    · intro error after run reached _
      have same : (Parser.peek >>= other) second = other first.kind second := by
        rw [← kind]
        rfl
      rw [same]
      exact further.error run reached matches_

/-- A token that is there is there for both. It may stand on another line if it comes from the
layout. -/
theorem taken {left right next : Parser β} {other : Token → Parser β}
    (more : firm = true → first.kind ≠ .eof) (run : left first = next first.next)
    (same : first.Agrees second → right second = other second.token second.next)
    (further : ∀ token, first.token.Matches token →
      Parallel later firm next (other token) first.next second.next) :
    Parallel later firm left right first second := by
  have moved := next_suffix first
  have spec := (further first.token (.refl _)).onward
  refine ⟨?_, ?_, ?_⟩
  · unfold Ensures
    rw [run]
    apply spec.mono
    · exact fun _ _ onward => onward.trans moved
    · rintro error last ⟨onward, stands⟩
      exact ⟨onward.trans moved, fun lined => stands (lined.of_suffix moved)⟩
  · intro value after begun reached matches_
    rw [run] at begun
    have open_ : first.Open later := by
      cases firm with
      | false => exact (reached rfl).of_suffix ((spec.ok begun).trans moved)
      | true => exact .of_rest (rest_ne_nil (more rfl))
    have agrees := matches_.agrees open_
    rw [same agrees]
    exact (further second.token agrees.token).ok begun reached (matches_.next open_)
  · intro error after begun reached matches_
    rw [run] at begun
    have open_ := reached.of_suffix ((spec.error begun).1.trans moved)
    have agrees := matches_.agrees open_
    rw [same agrees]
    exact (further second.token agrees.token).error begun reached (matches_.next open_)

/-- A mistake under the cursor is one for both. -/
theorem blamed {left right : Parser β} (mistake : Mistake)
    (run : left first = .error (first.error mistake) first)
    (same : first.Agrees second → right second = .error (second.error mistake) second) :
    Parallel later firm left right first second where
  onward := by
    unfold Ensures
    rw [run]
    exact ⟨List.suffix_rfl, fun _ _ => .inl rfl⟩
  ok begun := by
    rw [run] at begun
    cases begun
  error begun reached matches_ := by
    rw [run] at begun
    cases begun
    have agrees := matches_.agrees reached
    exact ⟨_, second, same agrees, agrees.site mistake, matches_⟩

/-- Parsers that skip a token run in parallel behind it. -/
theorem skip {next other : Unit → Parser β} (more : firm = true → first.kind ≠ .eof)
    (further : Parallel later firm (next ()) (other ()) first.next second.next) :
    Parallel later firm (Parser.skip >>= next) (Parser.skip >>= other) first second :=
  taken more rfl (fun _ => rfl) fun _ _ => further

/-- Parsers that try a token run in parallel with it and without it. -/
theorem accept {kind : Kind} {next other : Bool → Parser β} (more : kind ≠ .eof)
    (present : first.kind = kind →
      Parallel later firm (next true) (other true) first.next second.next)
    (absent : first.kind ≠ kind → Parallel later firm (next false) (other false) first second)
    (needs : first.kind ≠ kind → firm = true → Needs (next false) ∨ headKind later ≠ kind) :
    Parallel later firm (Parser.accept kind >>= next) (Parser.accept kind >>= other) first
      second := by
  by_cases isKind : first.kind = kind
  · refine taken (fun _ => isKind ▸ more) ?_ ?_ fun _ _ => present isKind
    · rw [accept_bind, if_pos isKind]
    · intro agrees
      rw [accept_bind, if_pos (agrees.kind.trans isKind)]
  have absent := absent isKind
  refine ⟨?_, ?_, ?_⟩
  · rw [ensures_bind, ensures_accept]
    exact ⟨fun same => absurd same isKind, fun _ => absent.onward⟩
  · intro value after run reached matches_
    rw [accept_bind, if_neg isKind] at run
    have beyond : first.Open later ∨ headKind later ≠ kind := by
      cases firm with
      | false => exact .inl ((reached rfl).of_suffix (absent.onward.ok run))
      | true =>
          obtain needs | differs := needs isKind rfl
          · exact .inl (.of_rest fun empty => needs first empty value after run)
          · exact .inr differs
    rw [accept_bind, if_neg (matches_.kind_ne isKind beyond)]
    exact absent.ok run reached matches_
  · intro error after run reached matches_
    rw [accept_bind, if_neg isKind] at run
    have open_ := reached.of_suffix (absent.onward.error run).1
    rw [accept_bind, if_neg (matches_.kind_ne isKind (.inl open_))]
    exact absent.error run reached matches_

/-- Parsers that expect a token run in parallel behind it. -/
theorem expect {kind : Kind} {requirement : Requirement} {next other : Token → Parser β}
    (more : kind ≠ .eof)
    (further : first.kind = kind → ∀ token, first.token.Matches token →
      Parallel later firm (next first.token) (other token) first.next second.next) :
    Parallel later firm (Parser.expect kind requirement >>= next)
      (Parser.expect kind requirement >>= other) first second := by
  by_cases present : first.kind = kind
  · refine taken (fun _ => present ▸ more) ?_ ?_ (further present)
    · rw [expect_bind, if_pos present]
    · intro agrees
      rw [expect_bind, if_pos (agrees.kind.trans present)]
  · refine blamed (.missing requirement first.kind) ?_ ?_
    · rw [expect_bind, if_neg present]
    · intro agrees
      rw [expect_bind, agrees.kind, if_neg present]

/-- Parsers that expect a terminator run in parallel behind it. -/
theorem terminator {requirement : Requirement} {next other : Unit → Parser β}
    (further : Parallel later firm (next ()) (other ()) first.next second.next) :
    Parallel later firm (Parser.terminator requirement >>= next)
      (Parser.terminator requirement >>= other) first second := by
  cases stop : first.kind.isTerminator with
  | true =>
      have more : first.kind ≠ .eof := by
        intro ends
        simp [ends, Kind.isTerminator] at stop
      refine taken (fun _ => more) ?_ ?_ fun _ _ => further
      · rw [terminator_bind, if_pos stop]
      · intro agrees
        rw [terminator_bind, agrees.kind, if_pos stop]
  | false =>
      refine blamed (.missing requirement first.kind) ?_ ?_
      · rw [terminator_bind, stop]
        rfl
      · intro agrees
        rw [terminator_bind, agrees.kind, stop]
        rfl

end Parallel

end Parser

end Offside
