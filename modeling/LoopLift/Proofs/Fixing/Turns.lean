import LoopLift.Proofs.Fixing.Run

/-!
# The turns of a run

A run comes to the files of an analysis one after the other, and makes a draft of
each file from the file system as it stands then. The drafts decide everything:
they give the results of the run, and a file changes only by the verified text of
its draft.
-/

namespace LoopLift

open Syntax

/-- What a run makes of one file before it writes anything. -/
structure Draft where
  path : Path
  source : String
  plan : FixPlan

namespace Draft

/-- The text that is written for a draft: that of its edits, if they are to be
applied, there are some and they are accepted. -/
def output? (parse : Parser) (apply : Bool) (draft : Draft) : Option String :=
  if apply && !draft.plan.rewritten.isEmpty then
    (draft.plan.session.applyVerified parse).toOption
  else
    none

/-- The result for a draft. A draft whose edits are refused has none. -/
def result? (parse : Parser) (apply : Bool) (draft : Draft) : Option FileFix :=
  if apply && !draft.plan.rewritten.isEmpty then
    (draft.output? parse apply).map fun _ => FixRun.resultOf draft.path.shown draft.plan true
  else
    some (FixRun.resultOf draft.path.shown draft.plan false)

variable {parse : Parser} {apply : Bool} {draft : Draft}

theorem output?_eq_some_iff {text : String} :
    draft.output? parse apply = some text ↔
      apply = true ∧ draft.plan.rewritten ≠ [] ∧
        draft.plan.session.applyVerified parse = .ok text := by
  rw [output?]
  split
  · rename_i busy
    rw [Bool.and_eq_true, Bool.not_eq_true', List.isEmpty_eq_false_iff] at busy
    cases draft.plan.session.applyVerified parse <;> simp [Except.toOption, busy]
  · rename_i idle
    rw [Bool.and_eq_true, Bool.not_eq_true', List.isEmpty_eq_false_iff, not_and] at idle
    constructor
    · intro none
      cases none
    · rintro ⟨applying, busy, -⟩
      exact absurd busy (idle applying)

theorem result?_of_output? {text : String} (output : draft.output? parse apply = some text) :
    draft.result? parse apply = some (FixRun.resultOf draft.path.shown draft.plan true) := by
  rcases output?_eq_some_iff.mp output with ⟨applying, busy, -⟩
  have proceeds : (apply && !draft.plan.rewritten.isEmpty) = true := by
    simp [applying, busy]
  rw [result?, if_pos proceeds, output]
  rfl

theorem result?_of_idle (idle : apply = false ∨ draft.plan.rewritten = []) :
    draft.result? parse apply = some (FixRun.resultOf draft.path.shown draft.plan false) := by
  rw [result?, if_neg]
  rcases idle with preview | nothing
  · simp [preview]
  · simp [nothing]

/-- Every result of a draft counts its plan. It is that of a written file exactly
when there is an output. -/
theorem of_result? {fix : FileFix} (result : draft.result? parse apply = some fix) :
    fix = FixRun.resultOf draft.path.shown draft.plan fix.written ∧
      fix.written = (draft.output? parse apply).isSome := by
  rw [result?] at result
  split at result
  · rcases Option.map_eq_some_iff.mp result with ⟨text, output, rfl⟩
    rw [output]
    exact ⟨rfl, rfl⟩
  · rename_i idle
    cases result
    rw [output?, if_neg idle]
    exact ⟨rfl, rfl⟩

end Draft

namespace FixRun

/-- A file of a run, and the run as it comes to this file. -/
structure Turn where
  reached : FixRun
  entry : FileProblems

/-- The turns of a run through some files. -/
def turns (parse : Parser) (options : FixOptions) : FixRun → List FileProblems → List Turn
  | _, [] => []
  | run, entry :: rest => ⟨run, entry⟩ :: turns parse options (run.fixFile parse options entry) rest

/-- What a run makes of a file from the files that it is given. A path that leaves
the root, and a file that cannot be read, have no draft. -/
def draftOf? (parse : Parser) (root : Path) (files : FileSystem) (entry : FileProblems) :
    Option Draft :=
  match files.contain entry.file (some root) with
  | .error _ => none
  | .ok path =>
      match files.readText path with
      | .error _ => none
      | .ok source => some ⟨path, source, FixPlan.ofProblems parse (parse source) entry.problems⟩

theorem draftOf?_eq_some_iff {parse : Parser} {root : Path} {files : FileSystem}
    {entry : FileProblems} {draft : Draft} :
    draftOf? parse root files entry = some draft ↔
      files.contain entry.file (some root) = .ok draft.path ∧
        files.readText draft.path = .ok draft.source ∧
        draft.plan = FixPlan.ofProblems parse (parse draft.source) entry.problems := by
  rw [draftOf?]
  constructor
  · intro drafted
    split at drafted
    · cases drafted
    · rename_i path inside
      split at drafted
      · cases drafted
      · rename_i source read
        cases drafted
        exact ⟨inside, read, rfl⟩
  · rintro ⟨inside, read, planned⟩
    simp only [inside, read, ← planned]

namespace Turn

variable {parse : Parser} {options : FixOptions}

/-- The draft of a turn. After a failure there are no more drafts. -/
def draft? (parse : Parser) (options : FixOptions) (turn : Turn) : Option Draft :=
  match turn.reached.failure with
  | some _ => none
  | none => draftOf? parse options.root turn.reached.files turn.entry

/-- The text that a turn writes. -/
def output? (parse : Parser) (options : FixOptions) (turn : Turn) : Option String :=
  (turn.draft? parse options).bind (Draft.output? parse options.apply)

/-- The result that a turn adds to its run. -/
def result? (parse : Parser) (options : FixOptions) (turn : Turn) : Option FileFix :=
  (turn.draft? parse options).bind (Draft.result? parse options.apply)

/-- The run after a turn. -/
def next (parse : Parser) (options : FixOptions) (turn : Turn) : FixRun :=
  turn.reached.fixFile parse options turn.entry

theorem draft?_eq_some_iff {turn : Turn} {draft : Draft} :
    turn.draft? parse options = some draft ↔
      turn.reached.failure = none ∧
        turn.reached.files.contain turn.entry.file (some options.root) = .ok draft.path ∧
        turn.reached.files.readText draft.path = .ok draft.source ∧
        draft.plan = FixPlan.ofProblems parse (parse draft.source) turn.entry.problems := by
  rw [draft?]
  cases turn.reached.failure with
  | none => simp [draftOf?_eq_some_iff]
  | some failure => simp

/-- A turn of an applying run whose path stays below the root writes nothing in just
three cases: its file cannot be read, nothing of it is rewritten, or its edits are
refused. -/
theorem output?_eq_none_iff {turn : Turn} {path : Path} (applying : options.apply = true)
    (going : turn.reached.failure = none)
    (inside : turn.reached.files.contain turn.entry.file (some options.root) = .ok path) :
    turn.output? parse options = none ↔
      (∃ error, turn.reached.files.readText path = .error error) ∨
      ∃ draft, turn.draft? parse options = some draft ∧
        (draft.plan.rewritten = [] ∨
          ∃ error, draft.plan.session.applyVerified parse = .error error) := by
  cases read : turn.reached.files.readText path with
  | error error => simp [output?, draft?, draftOf?, going, inside, read]
  | ok source =>
      have drafted : turn.draft? parse options =
          some ⟨path, source, FixPlan.ofProblems parse (parse source) turn.entry.problems⟩ :=
        draft?_eq_some_iff.mpr ⟨going, inside, read, rfl⟩
      generalize FixPlan.ofProblems parse (parse source) turn.entry.problems = plan at drafted
      rw [output?, drafted, Option.bind_some, Draft.output?]
      by_cases nothing : plan.rewritten = []
      · simp [nothing]
      · cases verdict : plan.session.applyVerified parse <;>
          simp [applying, nothing, verdict, Except.toOption]

/-- A turn adds the result of its draft, and leaves the files as they are unless
its draft has an output, which is then written. -/
theorem next_spec (turn : Turn) :
    (turn.next parse options).results =
        turn.reached.results ++ (turn.result? parse options).toList ∧
      match turn.output? parse options with
      | none => (turn.next parse options).files = turn.reached.files
      | some text => ∃ draft, turn.draft? parse options = some draft ∧
          turn.reached.files.writeText draft.path text = .ok (turn.next parse options).files := by
  have move := turn.reached.move_fixFile parse options turn.entry
  rw [← next] at move
  generalize turn.next parse options = after at move
  cases move with
  | stopped failed => simp [result?, output?, draft?, failed]
  | escaped going outside => simp [result?, output?, draft?, draftOf?, going, outside]
  | unread going inside unreadable =>
      simp [result?, output?, draft?, draftOf?, going, inside, unreadable, tell]
  | @kept path source plan going inside read planned idle =>
      have drafted : turn.draft? parse options = some ⟨path, source, plan⟩ :=
        draft?_eq_some_iff.mpr ⟨going, inside, read, planned⟩
      have output : Draft.output? parse options.apply ⟨path, source, plan⟩ = none := by
        rw [Option.eq_none_iff_forall_ne_some]
        intro text output
        rcases Draft.output?_eq_some_iff.mp output with ⟨applying, busy, -⟩
        rcases idle with preview | nothing
        · cases applying.symm.trans preview
        · exact busy nothing
      have result : Draft.result? parse options.apply ⟨path, source, plan⟩ =
          some (resultOf path.shown plan false) := Draft.result?_of_idle idle
      simp [result?, output?, drafted, output, result, tell]
  | @refused path source plan error going inside read planned applying busy unverified =>
      have drafted : turn.draft? parse options = some ⟨path, source, plan⟩ :=
        draft?_eq_some_iff.mpr ⟨going, inside, read, planned⟩
      simp [result?, output?, drafted, Draft.output?, Draft.result?, applying, busy, unverified,
        Except.toOption, tell]
  | @written path source text plan files going inside read planned applying busy verified saved =>
      have drafted : turn.draft? parse options = some ⟨path, source, plan⟩ :=
        draft?_eq_some_iff.mpr ⟨going, inside, read, planned⟩
      have output : Draft.output? parse options.apply ⟨path, source, plan⟩ = some text :=
        Draft.output?_eq_some_iff.mpr ⟨applying, busy, verified⟩
      simp [result?, output?, drafted, output, Draft.result?_of_output? output, saved]

theorem next_results (turn : Turn) :
    (turn.next parse options).results =
      turn.reached.results ++ (turn.result? parse options).toList :=
  turn.next_spec.1

theorem writeText_next {turn : Turn} {draft : Draft} {text : String}
    (drafted : turn.draft? parse options = some draft)
    (output : draft.output? parse options.apply = some text) :
    turn.reached.files.writeText draft.path text = .ok (turn.next parse options).files := by
  have spec := (@next_spec parse options turn).2
  have turnOutput : turn.output? parse options = some text := by
    rw [output?, drafted, Option.bind_some, output]
  rw [turnOutput] at spec
  rcases spec with ⟨other, otherDrafted, saved⟩
  cases drafted.symm.trans otherDrafted
  exact saved

/-- What a turn writes is read back. -/
theorem readText_next {turn : Turn} {draft : Draft} {text : String}
    (drafted : turn.draft? parse options = some draft)
    (output : draft.output? parse options.apply = some text) :
    (turn.next parse options).files.readText draft.path = .ok text := by
  have saved := writeText_next drafted output
  rcases draft?_eq_some_iff.mp drafted with ⟨-, -, read, -⟩
  rcases FileSystem.writeText_of_readText read text with ⟨-, files, -, savedAgain, -, readBack, -⟩
  cases savedAgain.symm.trans saved
  exact readBack

end Turn

variable {parse : Parser} {options : FixOptions}

@[simp] theorem map_entry_turns (run : FixRun) (entries : List FileProblems) :
    (turns parse options run entries).map Turn.entry = entries := by
  induction entries generalizing run with
  | nil => rfl
  | cons entry rest ih => rw [turns, List.map_cons, ih]

/-- The results of a run are those of its turns. -/
theorem foldl_fixFile_results (run : FixRun) (entries : List FileProblems) :
    (entries.foldl (fixFile parse options) run).results =
      run.results ++ (turns parse options run entries).filterMap (Turn.result? parse options) := by
  induction entries generalizing run with
  | nil => simp [turns]
  | cons entry rest ih =>
      have here := @Turn.next_results parse options ⟨run, entry⟩
      rw [Turn.next] at here
      rw [List.foldl_cons, ih, here, turns, List.filterMap_cons]
      cases Turn.result? parse options ⟨run, entry⟩ <;> simp

theorem underway_of_mem_turns {files : FileSystem} {run : FixRun} {entries : List FileProblems}
    (before : run.Underway files) {turn : Turn} (member : turn ∈ turns parse options run entries) :
    turn.reached.Underway files := by
  induction entries generalizing run with
  | nil => cases member
  | cons entry rest ih =>
      rcases List.mem_cons.mp member with rfl | later
      · exact before
      · exact ih ((run.move_fixFile parse options entry).underway before) later

/-- The turns of a run without a failure find it without one, and have paths that
stay below the root. -/
theorem going_of_mem_turns {run : FixRun} {entries : List FileProblems}
    (finished : (entries.foldl (fixFile parse options) run).failure = none) {turn : Turn}
    (member : turn ∈ turns parse options run entries) :
    turn.reached.failure = none ∧
      ∃ path, turn.reached.files.contain turn.entry.file (some options.root) = .ok path := by
  induction entries generalizing run with
  | nil => cases member
  | cons entry rest ih =>
      rcases List.mem_cons.mp member with rfl | later
      · have nextGoing : (run.fixFile parse options entry).failure = none := by
          by_contra failed
          rcases Option.ne_none_iff_exists'.mp failed with ⟨failure, failed⟩
          rw [List.foldl_cons, foldl_fixFile_of_failure failed, failed] at finished
          cases finished
        rw [fixFile] at nextGoing
        cases going : run.failure with
        | some failure =>
            rw [going] at nextGoing
            cases going.symm.trans nextGoing
        | none =>
            refine ⟨rfl, ?_⟩
            cases inside : run.files.contain entry.file (some options.root) with
            | ok path => exact ⟨path, rfl⟩
            | error error =>
                rw [going, inside] at nextGoing
                cases nextGoing
      · exact ih finished later

/-- A run does not fail when all paths stay below the root at its start. -/
theorem foldl_fixFile_failure {files : FileSystem} {run : FixRun} {entries : List FileProblems}
    (before : run.Underway files) (going : run.failure = none)
    (inside : ∀ entry ∈ entries,
      ∃ path, files.contain entry.file (some options.root) = .ok path) :
    (entries.foldl (fixFile parse options) run).failure = none := by
  induction entries generalizing run with
  | nil => exact going
  | cons entry rest ih =>
      rcases List.forall_mem_cons.mp inside with ⟨⟨path, here⟩, later⟩
      have move := run.move_fixFile parse options entry
      refine ih (move.underway before) ?_ later
      rw [before.shape.contain] at here
      generalize run.fixFile parse options entry = after at move
      cases move with
      | stopped failed => exact going
      | escaped _ outside => cases here.symm.trans outside
      | unread => exact going
      | kept => exact going
      | refused => exact going
      | written => exact going

/-! ## The turns of an analysis -/

/-- The turns of a run over an analysis. -/
def turnsOf (parse : Parser) (options : FixOptions) (files : FileSystem) (analysis : Analysis) :
    List Turn :=
  turns parse options (opened options files analysis) (FileProblems.ofProblems analysis.problems)

theorem map_entry_turnsOf (files : FileSystem) (analysis : Analysis) :
    (turnsOf parse options files analysis).map Turn.entry =
      FileProblems.ofProblems analysis.problems :=
  map_entry_turns _ _

theorem mem_ofProblems_of_mem_turnsOf {files : FileSystem} {analysis : Analysis} {turn : Turn}
    (member : turn ∈ turnsOf parse options files analysis) :
    turn.entry ∈ FileProblems.ofProblems analysis.problems := by
  rw [← map_entry_turnsOf files analysis]
  exact List.mem_map_of_mem member

/-- No two turns of a run have the same file. -/
theorem eq_of_same_of_mem_turnsOf {files : FileSystem} {analysis : Analysis} {left right : Turn}
    (leftMember : left ∈ turnsOf parse options files analysis)
    (rightMember : right ∈ turnsOf parse options files analysis)
    (same : left.entry.file.same right.entry.file = true) : left = right := by
  have strict := FileProblems.pairwise_ofProblems analysis.problems
  rw [← @map_entry_turnsOf parse options files analysis, List.pairwise_map] at strict
  have apart : (turnsOf parse options files analysis).Pairwise fun left right =>
      left.entry.file.same right.entry.file = false := by
    apply strict.imp
    intro left right before
    exact Path.same_eq_false_of_order_lt before
  have : Std.Symm fun left right : Turn => left.entry.file.same right.entry.file = false :=
    ⟨fun left right different => by rwa [Path.same, BEq.comm]⟩
  by_contra different
  have distinct := apart.forall leftMember rightMember different
  rw [same] at distinct
  cases distinct

/-- The last run of the turns of an analysis. -/
def passed (parse : Parser) (options : FixOptions) (files : FileSystem) (analysis : Analysis) :
    FixRun :=
  (FileProblems.ofProblems analysis.problems).foldl (fixFile parse options)
    (opened options files analysis)

/-- A run over an analysis leaves what its turns leave, up to notices. -/
theorem ofAnalysis_eq_passed (files : FileSystem) (analysis : Analysis) :
    (ofAnalysis parse options files analysis).files = (passed parse options files analysis).files ∧
    (ofAnalysis parse options files analysis).results =
      (passed parse options files analysis).results ∧
    (ofAnalysis parse options files analysis).failure =
      (passed parse options files analysis).failure := by
  by_cases problems : FileProblems.ofProblems analysis.problems = []
  · simp [ofAnalysis, passed, problems, opened]
  · rw [ofAnalysis_eq problems, ← passed]
    exact ⟨conclude_files _, conclude_results _, conclude_failure _⟩

theorem ofAnalysis_results (files : FileSystem) (analysis : Analysis) :
    (ofAnalysis parse options files analysis).results =
      (turnsOf parse options files analysis).filterMap (Turn.result? parse options) := by
  rw [(ofAnalysis_eq_passed files analysis).2.1, passed, foldl_fixFile_results]
  rfl

theorem ofAnalysis_failure_eq_none {files : FileSystem} {analysis : Analysis}
    (inside : ∀ item ∈ analysis.problems,
      ∃ path, files.contain item.file (some options.root) = .ok path) :
    (ofAnalysis parse options files analysis).failure = none := by
  rw [(ofAnalysis_eq_passed files analysis).2.2]
  apply foldl_fixFile_failure (opened_underway options files analysis) rfl
  intro entry listed
  rcases (FileProblems.of_mem_ofProblems listed).2 with ⟨first, reported⟩
  exact inside ⟨entry.file, first⟩ reported

end FixRun

end LoopLift
