/-
This file proves that a text means the same with and without a carriage return before each of its
line breaks, unless it has a string over several lines.
-/

import Offside.Proofs.Indent.Blank
import Offside.Proofs.Lexeme.Rescan

namespace Offside

/-- The text with a carriage return before every line break. -/
def carried (text : List Char) : List Char :=
  text.flatMap fun c => if c = '\n' then ['\r', '\n'] else [c]

section Text

variable {text rest : List Char} {c : Char}

@[simp]
theorem carried_nil : carried [] = [] := rfl

@[simp]
theorem carried_newline : carried ('\n' :: rest) = '\r' :: '\n' :: carried rest := by
  simp [carried]

@[simp]
theorem carried_cons (other : c ≠ '\n') : carried (c :: rest) = c :: carried rest := by
  simp [carried, other]

@[simp]
theorem carried_append (first second : List Char) :
    carried (first ++ second) = carried first ++ carried second := List.flatMap_append

/-- Every line break makes the text longer by one. -/
theorem length_carried (text : List Char) :
    (carried text).length = text.length + text.count '\n' := by
  induction text with
  | nil => rfl
  | cons c rest inductionHypothesis =>
      by_cases feed : c = '\n'
      · simp [feed, inductionHypothesis]
        omega
      · simp [feed, inductionHypothesis]
        omega

/-- A text gets no carriage return exactly when it has no line break. -/
theorem carried_eq_self_iff : carried text = text ↔ '\n' ∉ text := by
  constructor
  · intro same member
    have length := congrArg List.length same
    have count := List.count_pos_iff.2 member
    rw [length_carried] at length
    omega
  · intro free
    induction text with
    | nil => rfl
    | cons c rest inductionHypothesis =>
        rw [List.mem_cons, not_or] at free
        rw [carried_cons (Ne.symm free.1), inductionHypothesis free.2]

/-- Carriage returns leave the number of line breaks as it is. -/
theorem count_carried (text : List Char) : (carried text).count '\n' = text.count '\n' := by
  induction text with
  | nil => rfl
  | cons c rest inductionHypothesis =>
      by_cases feed : c = '\n'
      · simp [feed, inductionHypothesis]
      · simp [feed, inductionHypothesis]

/-- A search that treats both characters alike finds the same place. -/
theorem search_carried {sort : Char → Bool} (alike : sort '\r' = sort '\n') (text : List Char) :
    (carried text).takeWhile sort = carried (text.takeWhile sort) ∧
      (carried text).dropWhile sort = carried (text.dropWhile sort) := by
  induction text with
  | nil => exact ⟨rfl, rfl⟩
  | cons c rest inductionHypothesis =>
      by_cases feed : c = '\n'
      · cases passes : sort '\n' <;> simp [feed, alike, passes, inductionHypothesis]
      · cases passes : sort c <;> simp [feed, passes, inductionHypothesis]

end Text

namespace Piece

/-- The piece of the text with carriage returns. -/
def carry : Piece → Piece
  | joint _ => joint true
  | lexeme kind text => lexeme kind (carried text)
  | unclosed body => unclosed (carried body)
  | piece => piece

/-- A comment takes the carriage return of its line. Without one, the return is a blank. -/
def carryAll : List Piece → List Piece
  | [] => []
  | lineBreak :: ahead => blank '\r' :: lineBreak :: carryAll ahead
  | comment body :: lineBreak :: ahead => comment (body ++ ['\r']) :: lineBreak :: carryAll ahead
  | piece :: ahead => piece.carry :: carryAll ahead

/-- The first piece and the text after it, both with carriage returns. -/
def carryCut (first : Piece × List Char) : Piece × List Char := (first.1.carry, carried first.2)

section Cut

variable {c : Char} {rest : List Char}

/-- A tilde is cut alike with carriage returns. -/
theorem cutTilde_carried (free : '\r' ∉ rest) :
    cutTilde (carried rest) = carryCut (cutTilde rest) := by
  cases rest with
  | nil => rfl
  | cons d tail =>
      by_cases feed : d = '\n'
      · rw [feed, carried_newline]
        rfl
      · have other : d ≠ '\r' := fun same => free (same ▸ List.mem_cons_self)
        have stray (later : List Char) : cutTilde (d :: later) = (Piece.stray '~', d :: later) := by
          unfold cutTilde
          split <;> simp_all
        simp [stray, carryCut, carry, feed]

/-- A string is cut alike with carriage returns. -/
theorem cutString_carried (rest : List Char) :
    cutString (carried rest) = carryCut (cutString rest) := by
  have stop := List.head?_dropWhile_not (· != '"') rest
  unfold cutString
  dsimp only
  rw [(search_carried rfl rest).1, (search_carried rfl rest).2]
  cases found : rest.dropWhile (· != '"') with
  | nil => rfl
  | cons quote tail =>
      simp only [found, List.head?_cons, bne_eq_false_iff_eq] at stop
      simp [stop, carryCut, carry]

/-- A number is cut alike with carriage returns. -/
theorem cutNumber_carried (other : c ≠ '\n') (rest : List Char) :
    cutNumber c (carried rest) = carryCut (cutNumber c rest) := by
  have alike : Char.isDigit '\r' = Char.isDigit '\n' := rfl
  have carriage : Char.isDigit '\r' = false := rfl
  unfold cutNumber
  dsimp only
  rw [(search_carried alike rest).1, (search_carried alike rest).2]
  -- Only a point and a digit after it matter, and neither is a line break.
  match rest.dropWhile Char.isDigit with
  | [] => simp [carryCut, carry, other]
  | [d] =>
      by_cases feed : d = '\n' <;> simp [carryCut, carry, other, feed]
  | d :: e :: tail =>
      by_cases point : d = '.'
      · by_cases feed : e = '\n'
        · simp [carryCut, carry, other, point, feed, alike.symm, carriage]
        · obtain ⟨taken, dropped⟩ := search_carried alike tail
          cases digit : e.isDigit <;>
            simp [carryCut, carry, other, point, feed, digit, taken, dropped]
      · by_cases feed : d = '\n' <;> simp [carryCut, carry, other, point, feed]

/-- A word is cut alike with carriage returns. -/
theorem cutWord_carried (other : c ≠ '\n') (rest : List Char) :
    cutWord c (carried rest) = carryCut (cutWord c rest) := by
  have alike : isNamePart '\r' = isNamePart '\n' := by decide
  have free : '\n' ∉ rest.takeWhile isNamePart := by
    intro member
    have part := List.mem_takeWhile_imp member
    revert part
    decide
  unfold cutWord
  dsimp only
  rw [(search_carried alike rest).1, (search_carried alike rest).2]
  simp [carryCut, carry, other, carried_eq_self_iff.2 free]

/-- A single character is cut alike with carriage returns. -/
theorem cutSingle_carried (other : c ≠ '\n') (rest : List Char) :
    cutSingle c (carried rest) = carryCut (cutSingle c rest) := by
  unfold cutSingle
  cases Symbol.single? c <;> simp [carryCut, carry, other]

/-- No sign is written with a line break, and none with a carriage return. -/
theorem cutSymbol_carried (other : c ≠ '\n') (noComment : ¬ ['/', '/'] <+: c :: rest) :
    cutSymbol c (carried rest) = carryCut (cutSymbol c rest) := by
  cases rest with
  | nil => exact cutSingle_carried other []
  | cons d tail =>
      have apart : ¬ (c = '/' ∧ d = '/') := by
        intro slashes
        exact noComment ⟨tail, by rw [slashes.1, slashes.2]; rfl⟩
      have alone := cutSingle_carried other (d :: tail)
      by_cases feed : d = '\n'
      · have feeds : Symbol.pair? c '\n' = none := by simp [Symbol.pair?]
        have returns : Symbol.pair? c '\r' = none := by simp [Symbol.pair?]
        rw [feed, carried_newline] at alone
        simpa [feed, cutSymbol, feeds, returns] using alone
      · rw [carried_cons feed] at alone ⊢
        simp only [cutSymbol, if_neg apart]
        cases Symbol.pair? c d with
        | none => exact alone
        | some symbol => simp [carryCut, carry, other, feed]

/-- Outside comments and line breaks, the first piece only takes its own carriage returns. -/
theorem cut_carried (other : c ≠ '\n') (free : '\r' ∉ c :: rest)
    (noComment : ¬ ['/', '/'] <+: c :: rest) : cut c (carried rest) = carryCut (cut c rest) := by
  rw [List.mem_cons, not_or] at free
  unfold cut
  simp only [if_neg other]
  split
  · rfl
  split
  · exact cutTilde_carried free.2
  split
  · exact cutString_carried rest
  split
  · exact cutNumber_carried other rest
  split
  · exact cutWord_carried other rest
  · exact cutSymbol_carried other noComment

end Cut

/-- A piece that is neither a line break nor a comment is carried alone. -/
theorem carryAll_cons {piece : Piece} (noBreak : piece ≠ lineBreak)
    (noComment : ∀ body, piece ≠ comment body) (ahead : List Piece) :
    carryAll (piece :: ahead) = piece.carry :: carryAll ahead := by
  cases piece with
  | lineBreak => exact absurd rfl noBreak
  | comment body => exact absurd rfl (noComment body)
  | _ => rfl

/-- A line feed is one piece. -/
theorem split_newline (text : List Char) : split ('\n' :: text) = lineBreak :: split text :=
  split_cons '\n' text

/-- A comment runs up to the end of its line. -/
theorem split_toLineEnd {body later : List Char} (free : '\n' ∉ body) (ends : AtLineEnd later) :
    split ('/' :: '/' :: (body ++ later)) = comment body :: split later := by
  have all := bne_of_notMem free
  have stop : later.takeWhile (· != '\n') = [] ∧ later.dropWhile (· != '\n') = later := by
    cases later with
    | nil => exact ⟨rfl, rfl⟩
    | cons c tail => simp [ends c rfl]
  have cutOff : cut '/' ('/' :: (body ++ later)) = (comment body, later) := by
    change (comment ((body ++ later).takeWhile (· != '\n')),
      (body ++ later).dropWhile (· != '\n')) = _
    rw [List.takeWhile_append_of_pos all, List.dropWhile_append_of_pos all, stop.1, stop.2,
      List.append_nil]
  rw [split_cons, cutOff]

/-- A comment takes the carriage return at the end of its line. -/
theorem split_comment_carried {body later : List Char} (free : '\n' ∉ body)
    (ends : AtLineEnd later) (further : split (carried later) = carryAll (split later)) :
    split (carried ('/' :: '/' :: (body ++ later))) =
      carryAll (split ('/' :: '/' :: (body ++ later))) := by
  rw [carried_cons (by decide), carried_cons (by decide), carried_append,
    carried_eq_self_iff.2 free, split_toLineEnd free ends]
  cases later with
  | nil =>
      rw [carried_nil, split_toLineEnd free ends, split]
      rfl
  | cons c tail =>
      obtain rfl := ends c rfl
      have returns : '\n' ∉ body ++ ['\r'] := by simpa using free
      rw [carried_newline, split_newline, carryAll, BlankLine.split_blank rfl,
        split_newline] at further
      have lines : body ++ '\r' :: '\n' :: carried tail =
          body ++ ['\r'] ++ '\n' :: carried tail := by simp
      rw [carried_newline, lines, split_toLineEnd returns (by simp [AtLineEnd]), split_newline,
        split_newline, carryAll, (List.cons.inj (List.cons.inj further).2).2]

/-- The pieces of the text with carriage returns are those of the text without them, with the
returns put in. -/
theorem split_carried {text : List Char} (free : '\r' ∉ text) :
    split (carried text) = carryAll (split text) := by
  induction text using split.induct with
  | case1 => simp [split, carryAll]
  | case2 c rest first inductionHypothesis =>
      have whole := cut_text c rest
      have suffix : (cut c rest).2 <:+ c :: rest := ⟨_, whole⟩
      have further := inductionHypothesis fun member => free (suffix.subset member)
      change split (carried (cut c rest).2) = carryAll (split (cut c rest).2) at further
      by_cases feed : c = '\n'
      · rw [feed] at further ⊢
        rw [carried_newline, split_newline, carryAll, BlankLine.split_blank rfl, split_newline]
        exact congrArg _ (congrArg _ further)
      by_cases slashes : ['/', '/'] <+: c :: rest
      · obtain ⟨tail, same⟩ := slashes
        obtain ⟨rfl, rfl⟩ := List.cons.inj same
        have ends := dropWhile_atLineEnd tail
        have comment : '\n' ∉ tail.takeWhile (· != '\n') := by
          intro member
          simpa using List.mem_takeWhile_imp member
        have lines := split_comment_carried comment ends further
        rwa [List.takeWhile_append_dropWhile] at lines
      · have noBreak : (cut c rest).1 ≠ lineBreak := by
          intro same
          rw [same] at whole
          exact feed (List.cons.inj whole).1.symm
        have noComment (body : List Char) : (cut c rest).1 ≠ comment body := by
          intro same
          rw [same] at whole
          exact slashes ⟨body ++ (cut c rest).2, whole⟩
        rw [carried_cons feed, split_cons, split_cons, cut_carried feed free slashes,
          carryAll_cons noBreak noComment, ← further]
        rfl

end Piece

namespace Margin

open Piece

/-- A line that starts with another piece has no spaces at its head. -/
theorem spaces_of_ne {piece : Piece} (differs : piece ≠ .blank ' ') (ahead : List Piece) :
    spaces (piece :: ahead) = 0 := by
  rw [spaces, List.takeWhile_cons_of_neg (by simpa using differs), List.length_nil]

/-- A line that starts with another piece is all content. -/
theorem content_of_ne {piece : Piece} (differs : piece ≠ .blank ' ') (ahead : List Piece) :
    content (piece :: ahead) = piece :: ahead :=
  List.dropWhile_cons_of_neg (by simpa using differs)

/-- Where the line has no more spaces, the return changes nothing in the sort of its first piece. -/
theorem exists_head_carryAll {piece : Piece} (differs : piece ≠ .blank ' ') (ahead : List Piece) :
    ∃ first rest, carryAll (piece :: ahead) = first :: rest ∧ first ≠ .blank ' ' ∧
      isSignificant (first :: rest) = isSignificant (piece :: ahead) := by
  cases piece with
  | lineBreak => exact ⟨.blank '\r', _, rfl, by simp, rfl⟩
  | comment body =>
      rcases ahead with _ | ⟨_ | _ | _ | _ | _ | _ | _, ahead⟩ <;> exact ⟨_, _, rfl, nofun, rfl⟩
  | blank c => exact ⟨.blank c, _, rfl, differs, rfl⟩
  | joint | lexeme | stray | unclosed => exact ⟨_, _, rfl, nofun, rfl⟩

/-- The head of a line has the same spaces, and the same sort of piece comes after them. -/
theorem head_carryAll (pieces : List Piece) :
    spaces (carryAll pieces) = spaces pieces ∧
      isSignificant (content (carryAll pieces)) = isSignificant (content pieces) := by
  induction pieces with
  | nil => exact ⟨rfl, rfl⟩
  | cons piece ahead inductionHypothesis =>
      by_cases space : piece = .blank ' '
      · subst space
        obtain ⟨width, kind⟩ := inductionHypothesis
        exact ⟨congrArg Nat.succ width, kind⟩
      · obtain ⟨first, rest, head, differs, same⟩ := exists_head_carryAll space ahead
        rw [head, spaces_of_ne differs, spaces_of_ne space, content_of_ne differs,
          content_of_ne space]
        exact ⟨rfl, same⟩

/-- A carriage return at the head of a line marks no more than the line break after it. -/
theorem measure_carryAll (margin : Margin) (pieces : List Piece) :
    margin.measure (carryAll pieces) = margin.measure pieces := by
  obtain ⟨width, kind⟩ := head_carryAll pieces
  unfold spaces at width
  unfold content at kind
  simp only [measure, width, kind]

/-- A line break measures the same indentation with carriage returns ahead. -/
theorem advance_lineBreak_carryAll (margin : Margin) (ahead : List Piece) :
    margin.advance .lineBreak (carryAll ahead) = margin.advance .lineBreak ahead := by
  unfold advance
  simp only [measure_carryAll]

/-- A carriage return inside a comment changes nothing. -/
theorem advance_comment_carry (margin : Margin) (body : List Char) (ahead others : List Piece) :
    margin.advance (comment (body ++ ['\r'])) others = margin.advance (comment body) ahead := by
  simp [advance, lineAfter, Piece.text]

/-- A piece on one line gives what it gave, and any other moves on by as many lines. -/
theorem advance_carry (margin : Margin) {piece : Piece} (noBreak : piece ≠ .lineBreak)
    (single : ∀ kind text, piece = lexeme kind text → '\n' ∉ text) (ahead others : List Piece) :
    margin.advance piece.carry others = margin.advance piece ahead := by
  cases piece with
  | lineBreak => exact absurd rfl noBreak
  | lexeme kind text =>
      rw [carry, carried_eq_self_iff.2 (single kind text rfl)]
      rfl
  | joint carriage => cases carriage <;> rfl
  | unclosed body => simp [carry, advance, lineAfter, Piece.text, count_carried]
  | blank | comment | stray => rfl

/-- Pieces without a lexeme over several lines give the same tokens and errors. -/
theorem arrange_carryAll (margin : Margin) {pieces : List Piece}
    (single : ∀ kind text, lexeme kind text ∈ pieces → '\n' ∉ text) :
    margin.arrange (carryAll pieces) = margin.arrange pieces := by
  fun_induction carryAll pieces generalizing margin with
  | case1 => rfl
  | case2 ahead inductionHypothesis =>
      have idle : margin.advance (blank '\r') (.lineBreak :: carryAll ahead) = (.empty, margin) :=
        rfl
      rw [BlankLine.arrange_of_idle idle, arrange, arrange, advance_lineBreak_carryAll,
        inductionHypothesis]
      intro kind text member
      exact single kind text (List.mem_cons_of_mem _ member)
  | case3 body ahead inductionHypothesis =>
      rw [arrange, arrange, advance_comment_carry margin body (.lineBreak :: ahead), arrange,
        arrange, advance_lineBreak_carryAll, inductionHypothesis]
      intro kind text member
      exact single kind text (List.mem_cons_of_mem _ (List.mem_cons_of_mem _ member))
  | case4 piece ahead noBreak noComment inductionHypothesis =>
      have alone : ∀ kind text, piece = lexeme kind text → '\n' ∉ text :=
        fun kind text same => single kind text (same ▸ List.mem_cons_self)
      rw [arrange, arrange, advance_carry margin noBreak alone ahead, inductionHypothesis]
      intro kind text member
      exact single kind text (List.mem_cons_of_mem _ member)

end Margin

/-- These are the spellings with the carriage returns in their lexemes. -/
theorem spellings_carryAll (pieces : List Piece) :
    ((Piece.carryAll pieces).flatMap Piece.spellings).map Spelling.lexeme =
      (pieces.flatMap Piece.spellings).map fun spelling =>
        String.ofList (carried spelling.lexeme.toList) := by
  fun_induction Piece.carryAll pieces with
  | case1 => rfl
  | case2 ahead inductionHypothesis => exact inductionHypothesis
  | case3 body ahead inductionHypothesis => exact inductionHypothesis
  | case4 piece ahead noBreak noComment inductionHypothesis =>
      rw [List.flatMap_cons, List.flatMap_cons, List.map_append, List.map_append,
        inductionHypothesis]
      cases piece <;> simp [Piece.carry, Piece.spellings]

/-- Every lexeme of a text without strings over several lines stands on one line. -/
theorem single_of_strings {source : String}
    (strings : ∀ token ∈ (scan source).tokens, token.kind = .string → '\n' ∉ token.lexeme.toList)
    {kind : Kind} {text : List Char} (member : .lexeme kind text ∈ Piece.split source.toList) :
    '\n' ∉ text := by
  let spelling : Spelling := ⟨kind, String.ofList text, kind.literal? text⟩
  have present : spelling ∈ (Piece.split source.toList).flatMap Piece.spellings :=
    List.mem_flatMap.2 ⟨_, member, List.mem_singleton.2 rfl⟩
  have genuine : spelling.Genuine := (Piece.reading_split source.toList).genuine _ present
  have written : spelling.lexeme.toList = text := String.toList_ofList
  by_cases isString : kind = .string
  · rw [← spellingsOf_scan] at present
    obtain ⟨token, found, same⟩ := List.mem_map.1 present
    have quoted : token.kind = .string := (congrArg Spelling.kind same).trans isString
    have lexeme : token.lexeme = spelling.lexeme := congrArg Spelling.lexeme same
    rw [← written, ← lexeme]
    exact strings token (List.mem_filter.1 found).1 quoted
  · rw [← written]
    exact Piece.newline_notMem_of_denotes genuine isString

/-- Carriage returns before the line breaks of a text change no token, no error and no line, exactly
if every string of the text stands on one line. -/
theorem scan_carried (source : String) (free : '\r' ∉ source.toList) :
    (∀ token ∈ (scan source).tokens, token.kind = .string → '\n' ∉ token.lexeme.toList) ↔
      scan (String.ofList (carried source.toList)) = scan source := by
  have pieces := Piece.split_carried free
  have toList : (String.ofList (carried source.toList)).toList = carried source.toList :=
    String.toList_ofList
  constructor
  · intro strings
    unfold scan
    rw [toList, pieces, scanPieces, Margin.measure_carryAll, Margin.arrange_carryAll]
    · rfl
    · exact fun kind text member => single_of_strings strings member
  · intro same token member isString
    have spellings := congrArg (fun result => spellingsOf (Scan.tokens result)) same
    simp only [spellingsOf_scan, toList, pieces] at spellings
    have lexemes := spellings_carryAll (Piece.split source.toList)
    rw [spellings, ← spellingsOf_scan] at lexemes
    have present : token.spelling ∈ spellingsOf (scan source).tokens :=
      List.mem_map_of_mem (by simp [member, isString, Kind.isLayout])
    have equal := List.map_inj_left.1 lexemes token.spelling present
    have kept := congrArg String.toList equal
    rw [String.toList_ofList] at kept
    exact carried_eq_self_iff.1 kept.symm

/-- This text has a joint, a comment, a blank line and a string that stays open. -/
theorem scan_carried_joint :
    let source := "let x = ~\n  1 // one\n   \nx\"\n"
    '\r' ∉ source.toList ∧
      (∀ token ∈ (scan source).tokens, token.kind = .string → '\n' ∉ token.lexeme.toList) ∧
      scan "let x = ~\r\n  1 // one\r\n   \r\nx\"\r\n" = scan source := by
  intro source
  have free : '\r' ∉ source.toList := by decide
  have kinds : (scan source).tokens.map Token.kind =
      [.keyword .let_, .name, .symbol .equal, .number, .newline, .name, .newline, .eof] := by
    unfold scan
    rw [Piece.split_eq_splitWithin (show source.toList.length ≤ 28 by decide)]
    decide
  have strings : ∀ token ∈ (scan source).tokens,
      token.kind = .string → '\n' ∉ token.lexeme.toList := by
    intro token member isString
    have present : .string ∈ (scan source).tokens.map Token.kind :=
      List.mem_map.2 ⟨token, member, isString⟩
    rw [kinds] at present
    exact absurd present (by decide)
  have returns : String.ofList (carried source.toList) =
      "let x = ~\r\n  1 // one\r\n   \r\nx\"\r\n" := by decide
  have same := (scan_carried source free).1 strings
  rw [returns] at same
  exact ⟨free, strings, same⟩

end Offside
