/-
This file proves that the pieces of a text are what the grammar of lexemes reads, and that the text
cannot be read in another way.
-/

import Offside.Proofs.Lexeme.Grammar

namespace Offside

theorem bne_of_notMem {mark : Char} {text : List Char} (free : mark ∉ text) :
    ∀ c ∈ text, (c != mark) = true := by
  intro c member
  rw [bne_iff_ne]
  rintro rfl
  exact free member

section Literals

open Number

variable {digits whole : List Char}

/-- Digits alone stand for their whole number. -/
theorem literal?_whole (all : Digits digits) :
    Kind.number.literal? digits = some (pointed digits []) := by
  have text := List.takeWhile_eq_self_iff.2 all.all
  have rest := List.dropWhile_eq_nil_iff.2 all.all
  simp [Kind.literal?, ofLiteral, literalDecimal, pointed, text, rest]

/-- Digits around a point stand for the pointed number. -/
theorem literal?_fraction (front : Digits whole) :
    Kind.number.literal? (whole ++ '.' :: digits) = some (pointed whole digits) := by
  have text : (whole ++ '.' :: digits).takeWhile Char.isDigit = whole := by
    rw [List.takeWhile_append_of_pos front.all]
    simp
  have rest : (whole ++ '.' :: digits).dropWhile Char.isDigit = '.' :: digits := by
    rw [List.dropWhile_append_of_pos front.all]
    simp
  simp [Kind.literal?, ofLiteral, literalDecimal, pointed, text, rest]

end Literals

namespace Symbol

/-- A single character is the text of its symbol. -/
theorem text_of_single? {c : Char} {symbol : Symbol} (single : single? c = some symbol) :
    symbol.text = [c] := by
  unfold single? at single
  split at single <;> cases single <;> rfl

/-- Two characters are the text of their symbol. -/
theorem text_of_pair? {c d : Char} {symbol : Symbol} (pair : pair? c d = some symbol) :
    symbol.text = [c, d] := by
  unfold pair? at pair
  split at pair <;> cases pair <;> rfl

/-- The first character of a pair is a symbol by itself. -/
theorem single?_of_pair? {c d : Char} {symbol : Symbol} (pair : pair? c d = some symbol) :
    ∃ other, single? c = some other := by
  unfold pair? at pair
  split at pair <;> cases pair <;> exact ⟨_, rfl⟩

/-- A symbol is written with one character or with two. -/
theorem text_cases (symbol : Symbol) :
    (∃ c, symbol.text = [c] ∧ single? c = some symbol) ∨
      ∃ c d, symbol.text = [c, d] ∧ pair? c d = some symbol := by
  cases symbol <;> first | exact .inl ⟨_, rfl, rfl⟩ | exact .inr ⟨_, _, rfl, rfl⟩

end Symbol

namespace Keyword

/-- A word that is found is the text of its keyword. -/
theorem ofText?_eq_some {word : String} {keyword : Keyword} (found : ofText? word = some keyword) :
    keyword.text = word := by
  simpa using List.find?_some found

/-- A word that is not found is the text of no keyword. -/
theorem ofText?_eq_none {word : String} (missing : ofText? word = none) (keyword : Keyword) :
    keyword.text ≠ word := by
  have member : keyword ∈ all := by cases keyword <;> decide
  simpa using List.find?_eq_none.1 missing keyword member

/-- Every keyword is found by its text. -/
theorem ofText?_text (keyword : Keyword) : ofText? keyword.text = some keyword := by
  cases keyword <;> decide

/-- Every keyword has the form of a word. -/
theorem word (keyword : Keyword) : Word keyword.text.toList := by
  cases keyword <;> exact ⟨rfl, List.all_eq_true.1 rfl⟩

theorem ofWord_text (keyword : Keyword) :
    Kind.ofWord (String.ofList keyword.text.toList) = .keyword keyword := by
  rw [String.ofList_toList, Kind.ofWord, keyword.ofText?_text]

end Keyword

/-- A word that is no keyword is a name. -/
theorem Kind.ofWord_name {text : List Char}
    (other : ∀ keyword : Keyword, text ≠ keyword.text.toList) :
    Kind.ofWord (String.ofList text) = .name := by
  unfold Kind.ofWord
  split
  · next keyword found =>
      refine absurd ?_ (other keyword)
      rw [Keyword.ofText?_eq_some found, String.toList_ofList]
  · rfl

/-- The kind of a word is what the table of keywords says. -/
theorem denotes_word {text : List Char} (isWord : Word text) :
    Denotes text (Kind.ofWord (String.ofList text))
      ((Kind.ofWord (String.ofList text)).literal? text) := by
  unfold Kind.ofWord
  split
  · next keyword found =>
      have same := congrArg String.toList (Keyword.ofText?_eq_some found)
      rw [String.toList_ofList] at same
      rw [← same]
      exact Denotes.keyword keyword
  · next missing =>
      apply Denotes.name isWord
      intro keyword same
      apply Keyword.ofText?_eq_none missing keyword
      rw [same, String.ofList_toList]

namespace Piece

variable {c : Char} {rest : List Char}

/-- Every other character starts a number, a word or a symbol. -/
theorem cut_of_ne (feed : c ≠ '\n') (gap : isGap c = false) (tilde : c ≠ '~') (quote : c ≠ '"') :
    cut c rest =
      if c.isDigit then cutNumber c rest
      else if isNameStart c then cutWord c rest else cutSymbol c rest := by
  simp [cut, feed, gap, tilde, quote]

/-- A digit starts a number. -/
theorem cut_digit (isDigit : c.isDigit = true) : cut c rest = cutNumber c rest := by
  have other {d : Char} (noDigit : d.isDigit = false) : c ≠ d := by
    rintro rfl
    rw [noDigit] at isDigit
    cases isDigit
  have gap : isGap c = false := by simp [isGap, other]
  rw [cut_of_ne (other rfl) gap (other rfl) (other rfl), if_pos isDigit]

/-- No digit starts a name. -/
theorem isDigit_of_isNameStart (starts : isNameStart c = true) : c.isDigit = false := by
  change (decide ('A'.val ≤ c.val ∧ c.val ≤ 'Z'.val) ||
    (decide ('a'.val ≤ c.val) && decide (c.val ≤ 'z'.val)) || c == '_') = true at starts
  simp only [Bool.or_eq_true, Bool.and_eq_true, decide_eq_true_eq, beq_iff_eq] at starts
  simp only [Char.isDigit, Bool.and_eq_false_imp, decide_eq_true_eq, decide_eq_false_iff_not]
  intro _ small
  rcases starts with (upper | lower) | rfl
  · exact absurd (UInt32.le_trans upper.1 small) (by decide)
  · exact absurd (UInt32.le_trans lower.1 small) (by decide)
  · exact absurd small (by decide)

/-- The first character of a name starts a word. -/
theorem cut_nameStart (starts : isNameStart c = true) : cut c rest = cutWord c rest := by
  have other {d : Char} (noStart : isNameStart d = false) : c ≠ d := by
    rintro rfl
    rw [noStart] at starts
    cases starts
  have gap : isGap c = false := by
    simp [isGap, other (d := ' ') (by decide), other (d := '\t') (by decide),
      other (d := '\r') (by decide)]
  rw [cut_of_ne (other (by decide)) gap (other (by decide)) (other (by decide))]
  simp [isDigit_of_isNameStart starts, starts]

/-- The first character of a symbol starts a symbol. -/
theorem cut_sign {symbol : Symbol} (single : Symbol.single? c = some symbol) :
    cut c rest = cutSymbol c rest := by
  unfold Symbol.single? at single
  split at single <;> cases single <;> rfl

/-- A number takes the point and the digits after it, or it ends where its digits end. -/
theorem cutNumber_cases (c : Char) (rest : List Char) :
    (∃ digit tail, rest.dropWhile Char.isDigit = '.' :: digit :: tail ∧ digit.isDigit = true ∧
      (cutNumber c rest).1 = lexeme .number
        (c :: rest.takeWhile Char.isDigit ++ '.' :: digit :: tail.takeWhile Char.isDigit)) ∨
    ((∀ digit tail, rest.dropWhile Char.isDigit = '.' :: digit :: tail → digit.isDigit = false) ∧
      (cutNumber c rest).1 = lexeme .number (c :: rest.takeWhile Char.isDigit)) := by
  unfold cutNumber
  split
  next digit tail stop =>
    split
    next isDigit => exact .inl ⟨digit, tail, stop, isDigit, rfl⟩
    next noDigit =>
      refine .inr ⟨?_, rfl⟩
      intro other later same
      cases stop.symm.trans same
      simpa using noDigit
  next other =>
    refine .inr ⟨?_, rfl⟩
    intro digit tail same
    exact absurd same (other digit tail)

theorem takeWhile_digits {c : Char} (isDigit : c.isDigit = true) (rest : List Char) :
    Digits (c :: rest.takeWhile Char.isDigit) where
  nonempty := List.cons_ne_nil _ _
  all d member := by
    rcases List.mem_cons.1 member with rfl | member
    · exact isDigit
    · exact List.mem_takeWhile_imp member

/-- The piece is what the grammar says of its characters, where the rest follows them. -/
def Justified : Piece → List Char → Prop
  | lexeme kind text, _ => Denotes text kind (kind.literal? text)
  | stray c, _ => c ≠ '"'
  | unclosed body, rest => '"' ∉ body ∧ rest = []
  | gap, rest => Gap rest gap.text

/-- A number that is cut is a number of the grammar. -/
theorem cutNumber_justified (isDigit : c.isDigit = true) :
    Justified (cutNumber c rest).1 (cutNumber c rest).2 := by
  have whole := takeWhile_digits isDigit rest
  obtain ⟨digit, tail, -, also, found⟩ | ⟨-, found⟩ := cutNumber_cases c rest
  · rw [found, Justified, literal?_fraction whole]
    exact Denotes.fraction whole (takeWhile_digits also tail)
  · rw [found, Justified, literal?_whole whole]
    exact Denotes.whole whole

/-- A string that is cut is closed or reaches the end of the text. -/
theorem cutString_justified : Justified (cutString rest).1 (cutString rest).2 := by
  have free : '"' ∉ rest.takeWhile (· != '"') := by
    intro member
    simpa using List.mem_takeWhile_imp member
  have stop := List.head?_dropWhile_not (· != '"') rest
  unfold cutString
  split
  · exact ⟨free, rfl⟩
  next quote tail found =>
    simp only [found, List.head?_cons, bne_eq_false_iff_eq] at stop
    subst stop
    simpa [Justified, Kind.literal?] using Denotes.string free

/-- A word that is cut is a word of the grammar. -/
theorem cutWord_justified (starts : isNameStart c = true) :
    Justified (cutWord c rest).1 (cutWord c rest).2 :=
  denotes_word ⟨starts, fun _ member => List.mem_takeWhile_imp member⟩

/-- A single character that is cut is a symbol or stray. -/
theorem cutSingle_justified (noQuote : c ≠ '"') :
    Justified (cutSingle c rest).1 (cutSingle c rest).2 := by
  unfold cutSingle
  split
  next symbol single =>
    rw [← Symbol.text_of_single? single]
    exact Denotes.symbol symbol
  · exact noQuote

/-- A symbol that is cut is a symbol of the grammar, a comment or stray. -/
theorem cutSymbol_justified (noQuote : c ≠ '"') :
    Justified (cutSymbol c rest).1 (cutSymbol c rest).2 := by
  unfold cutSymbol
  split
  · exact cutSingle_justified noQuote
  split
  next d tail slashes =>
    refine Gap.comment ?_ (dropWhile_atLineEnd tail)
    intro member
    simpa using List.mem_takeWhile_imp member
  split
  next symbol pair =>
    rw [← Symbol.text_of_pair? pair]
    exact Denotes.symbol symbol
  · exact cutSingle_justified noQuote

/-- A tilde that is cut hides a line break or is stray. -/
theorem cutTilde_justified : Justified (cutTilde rest).1 (cutTilde rest).2 := by
  unfold cutTilde
  split
  · exact Gap.joint
  · exact Gap.carriageJoint
  · exact fun same => by cases same

/-- The first piece of every text is justified. -/
theorem cut_justified (c : Char) (rest : List Char) :
    Justified (cut c rest).1 (cut c rest).2 := by
  unfold cut
  split
  · exact Gap.blank (by decide)
  split
  next gap =>
    refine Gap.blank ?_
    simp only [isGap, Bool.or_eq_true, beq_iff_eq] at gap
    rcases gap with (rfl | rfl) | rfl <;> decide
  split
  · exact cutTilde_justified
  split
  · exact cutString_justified
  next noQuote =>
  split
  next isDigit => exact cutNumber_justified isDigit
  split
  next starts => exact cutWord_justified starts
  · exact cutSymbol_justified noQuote

/-- Nothing comes after a string that stays open. -/
theorem split_unclosed {text body : List Char} {after : List Piece} (before : List Piece)
    (whole : split text = before ++ unclosed body :: after) : after = [] := by
  induction text using split.induct generalizing before with
  | case1 =>
      rw [split] at whole
      simp at whole
  | case2 c rest first inductionHypothesis =>
      have justified := cut_justified c rest
      rw [split] at whole
      cases before with
      | nil =>
          obtain ⟨piece, ahead⟩ := List.cons.inj whole
          rw [piece] at justified
          rw [← ahead, justified.2, split]
      | cons other before => exact inductionHypothesis before (List.cons.inj whole).2

/-- The piece is a lexeme that is no shorter than the given one, and of its kind if it is the
same. -/
def Covers (piece : Piece) (kind : Kind) (text : List Char) : Prop :=
  ∃ other longer, piece = lexeme other longer ∧ text.length ≤ longer.length ∧
    (longer = text → other = kind)

/-- A number covers every row of digits at its place. -/
theorem cutNumber_covers_whole {digits after : List Char}
    (all : ∀ d ∈ digits, d.isDigit = true) (whole : digits ++ after = rest) :
    (cutNumber c rest).1.Covers .number (c :: digits) := by
  have front : digits.length ≤ (rest.takeWhile Char.isDigit).length := by
    rw [← whole, List.takeWhile_append_of_pos all, List.length_append]
    omega
  obtain ⟨digit, tail, -, -, found⟩ | ⟨-, found⟩ := cutNumber_cases c rest
  · refine ⟨_, _, found, ?_, fun _ => rfl⟩
    simp only [List.length_append, List.length_cons]
    omega
  · refine ⟨_, _, found, ?_, fun _ => rfl⟩
    simp only [List.length_cons]
    omega

/-- A number covers every fraction at its place. -/
theorem cutNumber_covers_fraction {digits after : List Char} {digit : Char} {others : List Char}
    (all : ∀ d ∈ digits, d.isDigit = true) (some : ∀ d ∈ digit :: others, d.isDigit = true)
    (whole : digits ++ '.' :: digit :: others ++ after = rest) :
    (cutNumber c rest).1.Covers .number (c :: digits ++ '.' :: digit :: others) := by
  rw [List.append_assoc] at whole
  rw [List.forall_mem_cons] at some
  have front : rest.takeWhile Char.isDigit = digits := by
    rw [← whole, List.takeWhile_append_of_pos all]
    simp
  have stop : rest.dropWhile Char.isDigit = '.' :: digit :: (others ++ after) := by
    rw [← whole, List.dropWhile_append_of_pos all]
    simp
  obtain ⟨other, tail, same, -, found⟩ | ⟨none, -⟩ := cutNumber_cases c rest
  · cases stop.symm.trans same
    refine ⟨_, _, found, ?_, fun _ => rfl⟩
    rw [front, List.takeWhile_append_of_pos some.2]
    simp only [List.length_append, List.length_cons]
    omega
  · rw [none digit _ stop] at some
    cases some.1

/-- A string covers every string at its place. -/
theorem cutString_covers {body after : List Char} (free : '"' ∉ body)
    (whole : body ++ '"' :: after = rest) :
    (cutString rest).1.Covers .string ('"' :: body ++ ['"']) := by
  have all := bne_of_notMem free
  have front : rest.takeWhile (· != '"') = body := by
    rw [← whole, List.takeWhile_append_of_pos all]
    simp
  have stop : rest.dropWhile (· != '"') = '"' :: after := by
    rw [← whole, List.dropWhile_append_of_pos all]
    simp
  refine ⟨.string, '"' :: body ++ ['"'], ?_, Nat.le_refl _, fun _ => rfl⟩
  simp [cutString, front, stop]

/-- A word covers every word at its place. -/
theorem cutWord_covers {word after : List Char} (all : ∀ d ∈ word, isNamePart d = true)
    (whole : word ++ after = rest) :
    (cutWord c rest).1.Covers (Kind.ofWord (String.ofList (c :: word))) (c :: word) := by
  refine ⟨_, _, rfl, ?_, fun same => by rw [same]⟩
  rw [← whole, List.takeWhile_append_of_pos all]
  simp

/-- A symbol covers every pair at its place. -/
theorem cutSymbol_covers_pair {d : Char} {symbol : Symbol} (pair : Symbol.pair? c d = some symbol)
    (after : List Char) :
    (cutSymbol c (d :: after)).1.Covers (.symbol symbol) [c, d] := by
  have noComment : ¬ (c = '/' ∧ d = '/') := by
    rintro ⟨rfl, rfl⟩
    cases pair
  exact ⟨_, _, by simp [cutSymbol, noComment, pair], Nat.le_refl _, fun _ => rfl⟩

/-- Outside a comment a symbol covers every single character at its place. -/
theorem cutSymbol_covers_single {symbol : Symbol} (single : Symbol.single? c = some symbol)
    (noComment : ¬ ['/', '/'] <+: c :: rest) :
    (cutSymbol c rest).1.Covers (.symbol symbol) [c] := by
  have alone (tail : List Char) : (cutSingle c tail).1.Covers (.symbol symbol) [c] :=
    ⟨_, _, by simp [cutSingle, single], Nat.le_refl _, fun _ => rfl⟩
  cases rest with
  | nil => exact alone []
  | cons d tail =>
      have apart : ¬ (c = '/' ∧ d = '/') := by
        rintro ⟨rfl, rfl⟩
        exact noComment ⟨tail, rfl⟩
      rw [cutSymbol, if_neg apart]
      cases pair : Symbol.pair? c d with
      | none => exact alone _
      | some other => exact ⟨_, _, rfl, by simp, fun same => by simp at same⟩

/-- The first piece covers every word at its place. -/
theorem cut_covers_word {word after : List Char} (isWord : Word word)
    (whole : word ++ after = c :: rest) :
    (cut c rest).1.Covers (Kind.ofWord (String.ofList word)) word := by
  cases word with
  | nil => exact isWord.elim
  | cons d others =>
      obtain ⟨rfl, later⟩ := List.cons.inj whole
      rw [cut_nameStart isWord.1]
      exact cutWord_covers isWord.2 later

/-- Whatever lexeme starts a text, the first piece is a lexeme that is no shorter. -/
theorem cut_covers {text : List Char} {kind : Kind} {literal : Option Literal}
    (denotes : Denotes text kind literal) (starts : text <+: c :: rest)
    (noComment : ¬ ['/', '/'] <+: c :: rest) : (cut c rest).1.Covers kind text := by
  obtain ⟨after, whole⟩ := starts
  cases denotes with
  | symbol symbol =>
      obtain ⟨d, written, single⟩ | ⟨d, e, written, pair⟩ := symbol.text_cases
      · rw [written] at whole ⊢
        obtain ⟨rfl, rfl⟩ := List.cons.inj whole
        rw [cut_sign single]
        exact cutSymbol_covers_single single noComment
      · rw [written] at whole ⊢
        obtain ⟨rfl, rfl⟩ := List.cons.inj whole
        obtain ⟨other, single⟩ := Symbol.single?_of_pair? pair
        rw [cut_sign single]
        exact cutSymbol_covers_pair pair after
  | whole digits =>
      obtain ⟨nonempty, all⟩ := digits
      obtain ⟨d, others, rfl⟩ := List.exists_cons_of_ne_nil nonempty
      obtain ⟨rfl, later⟩ := List.cons.inj whole
      rw [List.forall_mem_cons] at all
      rw [cut_digit all.1]
      exact cutNumber_covers_whole all.2 later
  | fraction front digits =>
      obtain ⟨nonempty, all⟩ := front
      obtain ⟨d, others, rfl⟩ := List.exists_cons_of_ne_nil nonempty
      obtain ⟨more, some⟩ := digits
      obtain ⟨e, last, rfl⟩ := List.exists_cons_of_ne_nil more
      obtain ⟨rfl, later⟩ := List.cons.inj whole
      rw [List.forall_mem_cons] at all
      rw [cut_digit all.1]
      exact cutNumber_covers_fraction all.2 some later
  | @string body free =>
      have quoted : '"' :: (body ++ '"' :: after) = c :: rest := by simpa using whole
      obtain ⟨rfl, later⟩ := List.cons.inj quoted
      exact cutString_covers free later
  | keyword keyword =>
      rw [← keyword.ofWord_text]
      exact cut_covers_word keyword.word whole
  | name isWord other =>
      rw [← Kind.ofWord_name other]
      exact cut_covers_word isWord whole

/-- Such a piece is neither a lexeme nor a mistake. -/
def IsGap : Piece → Prop
  | blank _ | comment _ | lineBreak | joint _ => True
  | lexeme _ _ | stray _ | unclosed _ => False

/-- A gap at the start of a text is its first piece. -/
theorem cut_of_gap {text after : List Char} (gap : Gap after text)
    (whole : text ++ after = c :: rest) : (cut c rest).1.IsGap ∧ (cut c rest).2 = after := by
  cases gap with
  | @blank d blank =>
      obtain ⟨rfl, rfl⟩ := List.cons.inj whole
      simp only [List.mem_cons, List.not_mem_nil, or_false] at blank
      rcases blank with rfl | rfl | rfl | rfl <;> exact ⟨trivial, rfl⟩
  | @comment body free ends =>
      obtain ⟨rfl, rfl⟩ := List.cons.inj whole
      have all := bne_of_notMem free
      have stop : after.dropWhile (· != '\n') = after := by
        cases after with
        | nil => rfl
        | cons d later => simp [ends d rfl]
      refine ⟨trivial, ?_⟩
      change (body ++ after).dropWhile (· != '\n') = after
      rw [List.dropWhile_append_of_pos all, stop]
  | joint =>
      obtain ⟨rfl, rfl⟩ := List.cons.inj whole
      exact ⟨trivial, rfl⟩
  | carriageJoint =>
      obtain ⟨rfl, rfl⟩ := List.cons.inj whole
      exact ⟨trivial, rfl⟩

end Piece

/-- No lexeme is empty. -/
theorem Denotes.ne_nil {text : List Char} {kind : Kind} {literal : Option Literal}
    (denotes : Denotes text kind literal) : text ≠ [] := by
  have words {word : List Char} (isWord : Word word) : word ≠ [] := by
    rintro rfl
    exact isWord
  cases denotes with
  | symbol symbol => cases symbol <;> exact List.cons_ne_nil _ _
  | whole digits => exact digits.nonempty
  | fraction => simp
  | string => simp
  | keyword keyword => exact words keyword.word
  | name isWord => exact words isWord

/-- A lexeme has the literal of its kind and its text. -/
theorem Denotes.literal_eq {text : List Char} {kind : Kind} {literal : Option Literal}
    (denotes : Denotes text kind literal) : literal = kind.literal? text := by
  cases denotes with
  | symbol | keyword | name => rfl
  | whole digits => exact (literal?_whole digits).symm
  | fraction front => exact (literal?_fraction front).symm
  | string => simp [Kind.literal?]

namespace Piece

variable {c : Char} {rest : List Char}

/-- What a lexeme stands for. -/
def spellings : Piece → List Spelling
  | lexeme kind text => [⟨kind, String.ofList text, kind.literal? text⟩]
  | _ => []

/-- What is wrong with the piece. -/
def flaws : Piece → List Flaw
  | stray c => [.unrecognized c]
  | unclosed _ => [.unclosedString]
  | _ => []

/-- Where no comment is cut, none starts. -/
theorem noComment_of_cut (other : ∀ body, (cut c rest).1 ≠ comment body) :
    ¬ ['/', '/'] <+: c :: rest := by
  rintro ⟨after, whole⟩
  obtain ⟨rfl, rfl⟩ := List.cons.inj whole
  exact other _ rfl

/-- A lexeme that is cut off a text is the longest there. -/
theorem longest_of_cut {kind : Kind} {text : List Char}
    (piece : (cut c rest).1 = lexeme kind text) :
    Longest text (c :: rest) where
  starts := ⟨(cut c rest).2, by rw [← cut_text c rest, piece, Piece.text]⟩
  longest other isLexeme starts := by
    obtain ⟨kind, literal, denotes⟩ := isLexeme
    have noComment : ¬ ['/', '/'] <+: c :: rest := noComment_of_cut (by simp [piece])
    obtain ⟨_, longer, found, length, -⟩ := cut_covers denotes starts noComment
    cases piece.symm.trans found
    exact length

/-- A stray character is cut alone. -/
theorem cut_stray {d : Char} (piece : (cut c rest).1 = stray d) :
    d = c ∧ (cut c rest).2 = rest := by
  simpa [piece, Piece.text] using cut_text c rest

/-- Where a stray character is cut, neither a lexeme nor a gap starts. -/
theorem astray_of_cut (piece : (cut c rest).1 = stray c) : Astray (c :: rest) where
  noLexeme text starts isLexeme := by
    obtain ⟨kind, literal, denotes⟩ := isLexeme
    have noComment : ¬ ['/', '/'] <+: c :: rest := noComment_of_cut (by simp [piece])
    obtain ⟨_, _, found, -⟩ := cut_covers denotes starts noComment
    cases piece.symm.trans found
  noGap text after whole gap := by
    have found := (cut_of_gap gap whole.symm).1
    rw [piece] at found
    exact found

/-- Every text is read piece by piece. -/
theorem reading_split (text : List Char) :
    Reading text ((split text).flatMap spellings) ((split text).flatMap flaws) := by
  induction text using split.induct with
  | case1 =>
      rw [split]
      exact .done
  | case2 c rest first further =>
      have justified := cut_justified c rest
      have whole := cut_text c rest
      rw [split, List.flatMap_cons, List.flatMap_cons]
      change Reading (cut c rest).2 _ _ at further
      cases piece : (cut c rest).1 with
      | blank | comment | lineBreak | joint =>
          rw [piece] at justified whole
          rw [← whole]
          exact .gap justified further
      | lexeme kind text =>
          have longest := longest_of_cut piece
          have noComment : ¬ ['/', '/'] <+: c :: rest := noComment_of_cut (by simp [piece])
          rw [piece] at justified whole
          rw [← whole] at longest noComment ⊢
          exact .lexeme justified longest noComment further
      | stray d =>
          rw [piece] at justified
          obtain ⟨rfl, same⟩ := cut_stray piece
          rw [same] at further ⊢
          exact .stray justified (astray_of_cut piece) further
      | unclosed body =>
          rw [piece] at justified whole
          rw [← whole, justified.2, split]
          simpa [spellings, flaws, Piece.text] using Reading.unclosed justified.1

theorem spellings_of_isGap {piece : Piece} (gap : piece.IsGap) : piece.spellings = [] := by
  cases piece <;> first | rfl | exact gap.elim

theorem flaws_of_isGap {piece : Piece} (gap : piece.IsGap) : piece.flaws = [] := by
  cases piece <;> first | rfl | exact gap.elim

/-- The longest lexeme of a text is its first piece. -/
theorem cut_of_longest {text : List Char} {kind : Kind} {literal : Option Literal}
    (denotes : Denotes text kind literal) (longest : Longest text (c :: rest))
    (noComment : ¬ ['/', '/'] <+: c :: rest) : (cut c rest).1 = lexeme kind text := by
  obtain ⟨other, longer, piece, length, same⟩ := cut_covers denotes longest.starts noComment
  have justified := cut_justified c rest
  rw [piece] at justified
  have starts := (longest_of_cut piece).starts
  have noLonger := longest.longest longer ⟨_, _, justified⟩ starts
  have equal : longer = text := by
    rw [List.prefix_iff_eq_take.1 starts, List.prefix_iff_eq_take.1 longest.starts]
    congr 1
    omega
  rw [piece, equal, same equal]

/-- Where neither a lexeme nor a gap starts, the character is stray. -/
theorem cut_of_astray (noQuote : c ≠ '"') (astray : Astray (c :: rest)) :
    (cut c rest).1 = stray c := by
  have justified := cut_justified c rest
  have whole := cut_text c rest
  cases piece : (cut c rest).1 with
  | blank | comment | lineBreak | joint =>
      rw [piece] at justified whole
      exact absurd justified (astray.noGap _ _ whole.symm)
  | lexeme kind text =>
      rw [piece] at justified
      exact absurd ⟨_, _, justified⟩ (astray.noLexeme text (longest_of_cut piece).starts)
  | stray d =>
      rw [(cut_stray piece).1]
  | unclosed body =>
      rw [piece] at whole
      exact absurd (List.cons.inj whole).1.symm noQuote

/-- A string without a closing quote takes the rest of the text. -/
theorem cut_of_unclosed {body : List Char} (free : '"' ∉ body) :
    cut '"' body = (unclosed body, []) := by
  have all := bne_of_notMem free
  change cutString body = _
  simp [cutString, List.takeWhile_eq_self_iff.2 all, List.dropWhile_eq_nil_iff.2 all]

/-- A text is read in one way only. -/
theorem reading_unique {text : List Char} {spelt : List Spelling} {flawed : List Flaw}
    (reading : Reading text spelt flawed) :
    spelt = (split text).flatMap spellings ∧ flawed = (split text).flatMap flaws := by
  induction reading with
  | done =>
      rw [split]
      exact ⟨rfl, rfl⟩
  | @gap text rest _ _ gap _ inductionHypothesis =>
      obtain ⟨c, tail, whole⟩ : ∃ c tail, text ++ rest = c :: tail := by
        cases gap <;> exact ⟨_, _, rfl⟩
      obtain ⟨isGap, after⟩ := cut_of_gap gap whole
      rw [whole, split]
      simp [spellings_of_isGap isGap, flaws_of_isGap isGap, after, inductionHypothesis]
  | @lexeme text rest kind literal _ _ denotes longest noComment _ inductionHypothesis =>
      obtain ⟨c, tail, rfl⟩ := List.exists_cons_of_ne_nil denotes.ne_nil
      rw [List.cons_append] at longest noComment ⊢
      have piece := cut_of_longest denotes longest noComment
      have after : (cut c (tail ++ rest)).2 = rest := by
        simpa [piece, Piece.text] using cut_text c (tail ++ rest)
      rw [split]
      simp [piece, after, spellings, flaws, denotes.literal_eq, inductionHypothesis]
  | @stray c rest _ _ noQuote astray _ inductionHypothesis =>
      have piece := cut_of_astray noQuote astray
      rw [split]
      simp [piece, (cut_stray piece).2, spellings, flaws, inductionHypothesis]
  | unclosed free =>
      rw [split, cut_of_unclosed free, split]
      exact ⟨rfl, rfl⟩

end Piece

end Offside
