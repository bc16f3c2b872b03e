/-
This file proves that the text of a nested list determines the list.
-/

import Offside.Tree.Listing
import Offside.Proofs.Lexeme.Pieces

namespace Offside

/-- A nested list holds words and other nested lists. -/
inductive Nest where
  | word (written : String)
  | list (parts : List Nest)

namespace Nest

mutual

def text : Nest → List Char
  | .word written => written.toList
  | .list [] => ['(', ')']
  | .list (part :: rest) => '(' :: (part.text ++ closing rest)

/-- These are the further parts of a list and its end. -/
def closing : List Nest → List Char
  | [] => [')']
  | part :: rest => ' ' :: (part.text ++ closing rest)

end

/-- The other characters have a meaning of their own between words. -/
def isPlain (c : Char) : Bool := c != ' ' && c != '(' && c != ')' && c != '"'

/-- A word is bare, or it is quoted and has no quote inside. -/
inductive Legible : List Char → Prop
  | bare {text : List Char} : text ≠ [] → (∀ c ∈ text, isPlain c = true) → Legible text
  | quoted {body : List Char} : '"' ∉ body → Legible ('"' :: (body ++ ['"']))

mutual

/-- Every word of the nest can be told from its surroundings. -/
def Clear : Nest → Prop
  | .word written => Legible written.toList
  | .list parts => ClearAll parts

def ClearAll : List Nest → Prop
  | [] => True
  | part :: rest => part.Clear ∧ ClearAll rest

end

/-- A part of a list ends before a space or a parenthesis. -/
def Ends (rest : List Char) : Prop := ∀ c ∈ rest.head?, c = ' ' ∨ c = ')'

theorem ends_nil : Ends [] := by simp [Ends]

/-- A part ends where the further parts begin. -/
theorem ends_closing (parts : List Nest) (rest : List Char) : Ends (closing parts ++ rest) := by
  cases parts <;> simp [Ends, closing]

section Words

variable {first second rest others : List Char}

/-- Two texts of one sort end at the same place. -/
theorem append_inj_of_stop {sort : Char → Bool} (all : ∀ c ∈ first, sort c = true)
    (allToo : ∀ c ∈ second, sort c = true) (stop : ∀ c ∈ rest.head?, sort c = false)
    (stopToo : ∀ c ∈ others.head?, sort c = false) (same : first ++ rest = second ++ others) :
    first = second ∧ rest = others := by
  have front {text rest : List Char} (all : ∀ c ∈ text, sort c = true)
      (stop : ∀ c ∈ rest.head?, sort c = false) : (text ++ rest).takeWhile sort = text := by
    rw [List.takeWhile_append_of_pos all]
    cases rest with
    | nil => simp
    | cons c rest => simp [stop c rfl]
  have equal : first = second := by rw [← front all stop, same, front allToo stopToo]
  subst equal
  exact ⟨rfl, List.append_cancel_left same⟩

/-- A bare word ends where its part ends. -/
theorem Ends.stop (ends : Ends rest) : ∀ c ∈ rest.head?, isPlain c = false := by
  intro c member
  obtain rfl | rfl := ends c member <;> rfl

/-- A word starts with a quote or with a plain character. -/
theorem Legible.starts (legible : Legible first) :
    ∃ c text, first = c :: text ∧ (c = '"' ∨ isPlain c = true) := by
  cases legible with
  | quoted => exact ⟨_, _, rfl, .inl rfl⟩
  | bare nonempty plain =>
      obtain ⟨c, text, rfl⟩ := List.exists_cons_of_ne_nil nonempty
      exact ⟨c, text, rfl, .inr (plain c List.mem_cons_self)⟩

/-- A legible word is told from what comes after it. -/
theorem Legible.append_inj (legible : Legible first) (legibleToo : Legible second)
    (ends : Ends rest) (endsToo : Ends others) (same : first ++ rest = second ++ others) :
    first = second ∧ rest = others := by
  have differ {text body rest others : List Char} (nonempty : text ≠ [])
      (plain : ∀ c ∈ text, isPlain c = true) : text ++ rest ≠ '"' :: (body ++ ['"']) ++ others := by
    obtain ⟨c, text, rfl⟩ := List.exists_cons_of_ne_nil nonempty
    intro same
    have quote := plain c List.mem_cons_self
    rw [(List.cons.inj same).1] at quote
    exact absurd quote (by decide)
  cases legible with
  | bare nonempty plain =>
      cases legibleToo with
      | bare _ plainToo => exact append_inj_of_stop plain plainToo ends.stop endsToo.stop same
      | quoted => exact absurd same (differ nonempty plain)
  | quoted free =>
      cases legibleToo with
      | bare nonempty plain => exact absurd same.symm (differ nonempty plain)
      | quoted freeToo =>
          simp only [List.cons_append, List.append_assoc, List.cons.injEq, true_and] at same
          obtain ⟨rfl, tail⟩ := append_inj_of_stop (bne_of_notMem free) (bne_of_notMem freeToo)
            (by simp) (by simp) same
          exact ⟨rfl, List.cons.inj tail |>.2⟩

end Words

/-- No part of a list starts with the end of the list. -/
theorem text_starts {nest : Nest} (clear : nest.Clear) :
    ∃ c rest, nest.text = c :: rest ∧ c ≠ ')' := by
  match nest, clear with
  | .word written, legible =>
      obtain ⟨c, rest, same, starts⟩ := legible.starts
      refine ⟨c, rest, same, ?_⟩
      rintro rfl
      exact absurd starts (by decide)
  | .list [], _ => exact ⟨_, _, rfl, by decide⟩
  | .list (_ :: _), _ => exact ⟨_, _, rfl, by decide⟩

/-- A word is never read as a list. -/
theorem word_ne_list {text rest others : List Char} {parts : List Nest} (legible : Legible text) :
    text ++ rest ≠ (Nest.list parts).text ++ others := by
  obtain ⟨c, more, rfl, starts⟩ := legible.starts
  intro same
  have mark : c = '(' := by cases parts <;> exact (List.cons.inj same).1
  subst mark
  exact absurd starts (by decide)

mutual

/-- A nest in a longer text determines its parts and its end. -/
theorem text_append_inj : ∀ {first second : Nest} {rest others : List Char},
    first.Clear → second.Clear → Ends rest → Ends others →
    first.text ++ rest = second.text ++ others → first = second ∧ rest = others
  | .word first, .word second, rest, others => fun clear clearToo ends endsToo same => by
      obtain ⟨equal, tail⟩ := clear.append_inj clearToo ends endsToo same
      exact ⟨congrArg Nest.word (String.toList_inj.1 equal), tail⟩
  | .word _, .list _, _, _ => fun clear _ _ _ same => absurd same (word_ne_list clear)
  | .list _, .word _, _, _ => fun _ clear _ _ same => absurd same.symm (word_ne_list clear)
  | .list [], .list [], _, _ => fun _ _ _ _ same => ⟨rfl, by simpa [text] using same⟩
  | .list [], .list (part :: parts), _, _ => fun _ clear _ _ same => by
      obtain ⟨c, text, starts, differs⟩ := text_starts clear.1
      simp [Nest.text, starts, differs.symm] at same
  | .list (part :: parts), .list [], _, _ => fun clear _ _ _ same => by
      obtain ⟨c, text, starts, differs⟩ := text_starts clear.1
      simp [Nest.text, starts, differs] at same
  | .list (part :: parts), .list (other :: more), rest, others =>
    fun clear clearToo ends endsToo same => by
      have inside : closing (part :: parts) ++ rest = closing (other :: more) ++ others := by
        simpa [Nest.text, closing] using same
      obtain ⟨equal, tail⟩ := closing_append_inj clear clearToo ends endsToo inside
      exact ⟨congrArg Nest.list equal, tail⟩

/-- The further parts are told from what comes after them. -/
theorem closing_append_inj : ∀ {first second : List Nest} {rest others : List Char},
    ClearAll first → ClearAll second → Ends rest → Ends others →
    closing first ++ rest = closing second ++ others → first = second ∧ rest = others
  | [], [], _, _ => fun _ _ _ _ same => ⟨rfl, by simpa [closing] using same⟩
  | [], _ :: _, _, _ => fun _ _ _ _ same => by simp [closing] at same
  | _ :: _, [], _, _ => fun _ _ _ _ same => by simp [closing] at same
  | part :: parts, other :: more, rest, others => fun clear clearToo ends endsToo same => by
      have inside : part.text ++ (closing parts ++ rest) =
          other.text ++ (closing more ++ others) := by
        simpa [closing] using same
      obtain ⟨rfl, tail⟩ := text_append_inj clear.1 clearToo.1 (ends_closing _ _)
        (ends_closing _ _) inside
      obtain ⟨rfl, equal⟩ := closing_append_inj clear.2 clearToo.2 ends endsToo tail
      exact ⟨rfl, equal⟩

end

/-- Two clear nests with the same text are the same. -/
theorem text_inj {first second : Nest} (clear : first.Clear) (clearToo : second.Clear)
    (same : first.text = second.text) : first = second := by
  refine (text_append_inj clear clearToo ends_nil ends_nil ?_).1
  rw [same]

/-- The text of a list is its parts with spaces between them. -/
theorem toList_nestedList {parts : List String} {nests : List Nest}
    (same : parts.map String.toList = nests.map text) :
    (nestedList parts).toList = (Nest.list nests).text := by
  have row (part : Nest) (rest : List Nest) :
      [' '].intercalate ((part :: rest).map text) ++ [')'] = part.text ++ closing rest := by
    induction rest generalizing part with
    | nil => simp [closing]
    | cons next rest inductionHypothesis =>
        have tail := inductionHypothesis next
        rw [List.map_cons] at tail
        rw [List.map_cons, List.map_cons, List.intercalate_cons_cons, List.append_assoc,
          List.append_assoc, tail]
        rfl
  rw [nestedList, String.toList_append, String.toList_append, String.toList_intercalate, same]
  cases nests with
  | nil => rfl
  | cons part rest =>
      rw [text, ← row, List.append_assoc]
      rfl

end Nest

end Offside
