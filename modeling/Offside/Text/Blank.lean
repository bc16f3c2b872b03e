/-
This file names the white space characters and strips them from lines.
-/

namespace Offside.Text

/-- This is the Unicode property `White_Space`. -/
def isBlank (c : Char) : Bool :=
  let code := c.toNat
  (9 ≤ code && code ≤ 13) || code == 0x20 || code == 0x85 || code == 0xA0 || code == 0x1680 ||
    (0x2000 ≤ code && code ≤ 0x200A) || code == 0x2028 || code == 0x2029 || code == 0x202F ||
    code == 0x205F || code == 0x3000

/-- A line end is a line feed or a carriage return. -/
def isLineEnd (c : Char) : Bool := c == '\n' || c == '\r'

/-- This list keeps everything up to its last character outside the class. -/
def dropEndWhile (member : Char → Bool) (text : List Char) : List Char :=
  (text.reverse.dropWhile member).reverse

/-- Members of the class are dropped from the end until there is none. -/
theorem dropEndWhile_eq_iff {member : Char → Bool} {text front : List Char} :
    dropEndWhile member text = front ↔
      (∃ ends, text = front ++ ends ∧ ∀ c ∈ ends, member c = true) ∧
        ∀ c ∈ front.getLast?, member c = false := by
  constructor
  · rintro rfl
    refine ⟨⟨(text.reverse.takeWhile member).reverse, ?_, ?_⟩, ?_⟩
    · rw [dropEndWhile, ← List.reverse_append, List.takeWhile_append_dropWhile,
        List.reverse_reverse]
    · have dropped : (text.reverse.takeWhile member).all member = true := List.all_takeWhile
      simpa using List.all_eq_true.1 dropped
    · intro c last
      have stop := List.head?_dropWhile_not member text.reverse
      rw [dropEndWhile, List.getLast?_reverse] at last
      rw [Option.mem_def.1 last] at stop
      exact stop
  · rintro ⟨⟨ends, rfl, dropped⟩, last⟩
    have all : ∀ c ∈ ends.reverse, member c = true := by simpa using dropped
    rw [dropEndWhile, List.reverse_append, List.dropWhile_append_of_pos all]
    rw [← List.reverse_reverse front, List.getLast?_reverse] at last
    cases parts : front.reverse with
    | nil => rw [List.dropWhile_nil, ← parts, List.reverse_reverse]
    | cons c rest =>
        rw [parts] at last
        rw [List.dropWhile_cons_of_neg (by simp [last c rfl]), ← parts, List.reverse_reverse]

def trimEnd (text : List Char) : List Char := dropEndWhile isBlank text

def trim (text : List Char) : List Char := trimEnd (text.dropWhile isBlank)

/-- Nothing is left of white space only. -/
theorem trim_eq_nil_iff (text : List Char) : trim text = [] ↔ ∀ c ∈ text, isBlank c = true := by
  have front : (text.takeWhile isBlank).all isBlank = true := List.all_takeWhile
  rw [List.all_eq_true] at front
  have parts : ∀ c, c ∈ text ↔ c ∈ text.takeWhile isBlank ∨ c ∈ text.dropWhile isBlank := by
    intro c
    rw [← List.mem_append, List.takeWhile_append_dropWhile]
  rw [trim, trimEnd, dropEndWhile_eq_iff]
  constructor
  · rintro ⟨⟨ends, whole, all⟩, -⟩ c member
    rw [List.nil_append] at whole
    rw [parts, whole] at member
    exact member.elim (front c) (all c)
  · exact fun all => ⟨⟨_, rfl, fun c member => all c ((parts c).2 (.inr member))⟩, nofun⟩

/-- This is the last run of characters that are not blank. -/
def lastWord (text : List Char) : List Char :=
  ((trimEnd text).reverse.takeWhile fun c => !isBlank c).reverse

/-- The text is cut after each line feed, and every piece keeps its line feed. -/
def lines : List Char → List (List Char)
  | [] => []
  | c :: rest =>
    if c = '\n' then [c] :: lines rest
    else match lines rest with
      | [] => [[c]]
      | line :: others => (c :: line) :: others

end Offside.Text
