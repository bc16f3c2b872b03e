/-
This file proves that a script may be split into successive entries of a session.
-/

import Offside.Proofs.Evaluation.Scripts
import Offside.Proofs.Seam.Reading

namespace Offside

namespace Machine

/-- With enough fuel the script ends like this. -/
def Completes (machine : Machine) (source : String) (completion : Completion) : Prop :=
  ∃ fuel, machine.run fuel source = some completion

/-- This is what the statements of a script leave behind. -/
def completion (errors : List RuntimeError) (after : Machine) : Completion :=
  ⟨.completed errors.length, errors.map RuntimeError.report, after⟩

/-- A script that is read completes as its statements end. -/
theorem completes_iff {machine : Machine} {source : String} {trees : List Statement}
    {done : Completion} (read : readScript source = .ok trees) :
    machine.Completes source done ↔
      ∃ errors after, machine.Interprets trees errors after ∧ done = completion errors after := by
  unfold Completes run
  simp only [read, Option.map_eq_some_iff, Prod.exists]
  constructor
  · rintro ⟨fuel, errors, after, ends, rfl⟩
    exact ⟨errors, after, ⟨fuel, ends⟩, rfl⟩
  · rintro ⟨errors, after, ⟨fuel, ends⟩, rfl⟩
    exact ⟨fuel, errors, after, ends, rfl⟩

/-- A script that is read completes in one way only. -/
theorem Completes.unique {machine : Machine} {source : String} {trees : List Statement}
    {done other : Completion} (read : readScript source = .ok trees)
    (ends : machine.Completes source done) (again : machine.Completes source other) :
    done = other := by
  obtain ⟨errors, after, run, rfl⟩ := (completes_iff read).1 ends
  obtain ⟨found, last, rerun, rfl⟩ := (completes_iff read).1 again
  obtain ⟨rfl, rfl⟩ := run.unique rerun
  rfl

end Machine

/-- One run does what two runs one after the other do. Its reports on the second script name the
lines that the given trees of that script have in the whole one. -/
structure Completion.Joins (trees : List Statement) (first second whole : Completion) : Prop where
  writes : whole.machine.writes = second.machine.writes
  outcomes : ∃ one two, first.outcome = .completed one ∧ second.outcome = .completed two ∧
    whole.outcome = .completed (one + two)
  messages : whole.reports.map Report.message = (first.reports ++ second.reports).map Report.message
  reports : ∃ errors, first.machine.Interprets trees errors whole.machine ∧
    whole.reports = first.reports ++ errors.map RuntimeError.report

/-- Runs whose errors have the same messages join. -/
theorem joins_of_relined {trees : List Statement} {first second errors : List RuntimeError}
    {middle after last : Machine} (ends : middle.Interprets trees errors last)
    (messages : second.map (·.fault.message) = errors.map (·.fault.message))
    (writes : after.writes = last.writes) :
    Completion.Joins trees (Machine.completion first middle) (Machine.completion second after)
      (Machine.completion (first ++ errors) last) where
  writes := writes.symm
  outcomes := by
    have same := congrArg List.length messages
    rw [List.length_map, List.length_map] at same
    exact ⟨_, _, rfl, rfl, by rw [same, ← List.length_append]; rfl⟩
  messages := by
    have same : second.map (Report.message ∘ RuntimeError.report) =
      errors.map (Report.message ∘ RuntimeError.report) := messages
    simp [Machine.completion, same]
  reports := ⟨errors, ends, List.map_append⟩

/-- Statements on later lines are the same without their lines. -/
theorem lines_irrelevant (amount : Nat) (trees : List Statement) :
    trees.map (Statement.reline fun _ => 0) =
      (trees.map (Statement.reline (· + amount))).map (Statement.reline fun _ => 0) := by
  rw [List.map_map]
  apply List.map_congr_left
  intro tree _
  exact (Statement.reline_reline (· + amount) (fun _ => 0) tree).symm

section Split

variable {first second whole : String} {trees others : List Statement} {amount : Nat}
  {machine : Machine}

/-- Two runs one after the other are joined by a run of the whole script. -/
theorem exists_joined (one : readScript first = .ok trees) (two : readScript second = .ok others)
    (read : readScript whole = .ok (trees ++ others.map (Statement.reline (· + amount))))
    {start rest : Completion} (begins : machine.Completes first start)
    (goesOn : start.machine.Completes second rest) :
    ∃ done, machine.Completes whole done ∧
      start.Joins (others.map (Statement.reline (· + amount))) rest done := by
  obtain ⟨errors, middle, run, rfl⟩ := (Machine.completes_iff one).1 begins
  obtain ⟨more, after, further, rfl⟩ := (Machine.completes_iff two).1 goesOn
  obtain ⟨found, last, again, messages, writes⟩ := further.relined (lines_irrelevant amount others)
  have joined := Machine.interprets_append.2 ⟨errors, middle, found, run, again, rfl⟩
  exact ⟨_, (Machine.completes_iff read).2 ⟨_, last, joined, rfl⟩,
    joins_of_relined again messages writes⟩

/-- A run of the whole script is a run of its first part and a run of its second part. -/
theorem exists_parts (one : readScript first = .ok trees) (two : readScript second = .ok others)
    (read : readScript whole = .ok (trees ++ others.map (Statement.reline (· + amount))))
    {done : Completion} (ended : machine.Completes whole done) :
    ∃ start rest, machine.Completes first start ∧ start.machine.Completes second rest := by
  obtain ⟨_, last, run, rfl⟩ := (Machine.completes_iff read).1 ended
  obtain ⟨errors, middle, found, begins, goesOn, rfl⟩ := Machine.interprets_append.1 run
  obtain ⟨more, after, further, -, -⟩ := goesOn.relined (lines_irrelevant amount others).symm
  exact ⟨_, _, (Machine.completes_iff one).2 ⟨errors, middle, begins, rfl⟩,
    (Machine.completes_iff two).2 ⟨more, after, further, rfl⟩⟩

end Split

/-- A script may be split into successive entries of a session, after a line break and before a line
without an indent. It is read as the statements of the one entry and those of the other, on later
lines. From every machine, one run ends exactly if the two runs one after the other end, and then
they write the same and report as many errors with the same messages. -/
theorem session_split {first second : String} {trees others : List Statement}
    (one : readScript first = .ok trees) (two : readScript second = .ok others)
    (ends : Piece.EndsScript first.toList) (paired : Piece.Paired second.toList)
    (flush : Cursor.headKind (scan second).tokens ≠ .indent) :
    let shifted := others.map (Statement.reline (· + first.toList.count '\n'))
    readScript (first ++ second) = .ok (trees ++ shifted) ∧
    ∀ machine : Machine,
      ((∃ start rest, machine.Completes first start ∧ start.machine.Completes second rest) ↔
        ∃ whole, machine.Completes (first ++ second) whole) ∧
      ∀ start rest whole, machine.Completes first start → start.machine.Completes second rest →
        machine.Completes (first ++ second) whole → start.Joins shifted rest whole := by
  intro shifted
  have read : readScript (first ++ second) = .ok (trees ++ shifted) :=
    readScript_append one two ends paired flush
  refine ⟨read, fun machine => ⟨⟨?_, ?_⟩, ?_⟩⟩
  · intro ⟨start, rest, begins, goesOn⟩
    obtain ⟨whole, ended, -⟩ := exists_joined one two read begins goesOn
    exact ⟨whole, ended⟩
  · intro ⟨whole, ended⟩
    exact exists_parts one two read ended
  · intro start rest whole begins goesOn ended
    obtain ⟨done, again, joins⟩ := exists_joined one two read begins goesOn
    rwa [ended.unique read again]

/-- The first entry leaves a block open at its end, and both entries fail. -/
theorem session_split_open_block :
    let first := "if true then\n    -nil\n"
    let second := "  // note\r\n-nil\ntrue\n"
    let negation (line : Nat) : Statement := .expression (.unary .negate (.constant .nil line) line)
    let shifted : List Statement := [negation 4, .expression (.constant (.bool true) 5)]
    let machine : Machine := ⟨Store.empty.newRoot.2, #[], true, .ticking 0, 0⟩
    readScript (first ++ second) =
      .ok (.if_ (.constant (.bool true) 1) (.block [negation 2]) none :: shifted) ∧
    ∃ start rest whole, machine.Completes first start ∧ start.machine.Completes second rest ∧
      machine.Completes (first ++ second) whole ∧ start.Joins shifted rest whole ∧
      whole.outcome = .completed 2 := by
  intro first second negation shifted machine
  have pieces : Piece.split first.toList =
      [.lexeme (.keyword .if_) ['i', 'f'], .blank ' ',
        .lexeme (.keyword .true) ['t', 'r', 'u', 'e'], .blank ' ',
        .lexeme (.keyword .then_) ['t', 'h', 'e', 'n'], .lineBreak,
        .blank ' ', .blank ' ', .blank ' ', .blank ' ', .lexeme (.symbol .minus) ['-'],
        .lexeme (.keyword .nil) ['n', 'i', 'l'], .lineBreak] := by
    change Piece.split "if true then\n    -nil\n".toList = _
    rw [Piece.split_eq_splitWithin (Nat.le_refl 22)]
    rfl
  have others : Piece.split second.toList =
      [.blank ' ', .blank ' ', .comment [' ', 'n', 'o', 't', 'e', '\r'], .lineBreak,
        .lexeme (.symbol .minus) ['-'], .lexeme (.keyword .nil) ['n', 'i', 'l'], .lineBreak,
        .lexeme (.keyword .true) ['t', 'r', 'u', 'e'], .lineBreak] := by
    change Piece.split "  // note\r\n-nil\ntrue\n".toList = _
    rw [Piece.split_eq_splitWithin (Nat.le_refl 21)]
    rfl
  have one : readScript first =
      .ok [.if_ (.constant (.bool true) 1) (.block [negation 2]) none] := by
    unfold readScript scan
    rw [pieces]
    rfl
  have two : readScript second = .ok [negation 2, .expression (.constant (.bool true) 3)] := by
    unfold readScript scan
    rw [others]
    rfl
  have ends : Piece.EndsScript first.toList := by
    have character : first.toList.getLast? = some '\n' := by decide
    refine ⟨fun last present => ?_, fun carriage => ?_⟩
    · rw [character] at present
      exact (Option.some.inj present).symm
    · simp [pieces]
  have paired : Piece.Paired second.toList := by
    simp [second, Piece.paired_cons, Piece.paired_nil]
  have flush : Cursor.headKind (scan second).tokens ≠ .indent := by
    unfold scan
    rw [others]
    decide
  have begins : machine.Interprets [.if_ (.constant (.bool true) 1) (.block [negation 2]) none]
      [⟨.nonNumeric .nil, 2⟩] _ := ⟨9, rfl⟩
  have goesOn (middle : Machine) : middle.Interprets
      [negation 2, .expression (.constant (.bool true) 3)] [⟨.nonNumeric .nil, 2⟩] _ := ⟨9, rfl⟩
  have start := (Machine.completes_iff one).2 ⟨_, _, begins, rfl⟩
  have rest (middle : Machine) := (Machine.completes_iff two).2 ⟨_, _, goesOn middle, rfl⟩
  have lines : first.toList.count '\n' = 2 := by decide
  obtain ⟨read, runs⟩ := session_split one two ends paired flush
  obtain ⟨ended, joins⟩ := runs machine
  obtain ⟨whole, final⟩ := ended.1 ⟨_, _, start, rest _⟩
  have joined := joins _ _ whole start (rest _) final
  rw [lines] at read joined
  obtain ⟨_, _, one, two, sum⟩ := joined.outcomes
  cases one
  cases two
  exact ⟨read, _, _, whole, start, rest _, final, joined, sum⟩

end Offside
