import GuardedRun.LogFile
import GuardedRun.Proofs.JsonText
import GuardedRun.Proofs.Splitting

/-! A runtime log after any number of records. What is recorded is one line of the file, whatever its text
says, so the lines are read back one by one; and the file has no part in what is kept in memory. -/

namespace GuardedRun

/-- A line of a file tells, as JSON, what was recorded. -/
def LogLine.ToldBy (invocation : Option String) (line : LogLine) (text : String) : Prop :=
  ∃ members, Json.parse text = some (.obj members) ∧
    Json.lookup "level" members = some (.str line.level.text) ∧
    Json.lookup "event" members = some (.str line.event) ∧
    Json.lookup "message" members = some (.str line.message) ∧
    Json.lookup "invocation" members = some (Json.ofOption .str invocation)

/-- A line that is recorded, at the moment that the clock of the machine gives. -/
structure LogRecord where
  seconds : Int64
  time : String
  line : LogLine

namespace LogRecord

def stamp (record : LogRecord) : Stamp := ⟨record.seconds.toInt, record.time⟩

/-- The record as one line of a file. -/
def text (invocation : Option String) (record : LogRecord) : String :=
  (RuntimeLog.entry record.stamp invocation record.line).render

variable (invocation : Option String) (record : LogRecord)

theorem faithful_entry : (RuntimeLog.entry record.stamp invocation record.line).Faithful := by
  have hinvocation : (Json.ofOption .str invocation).Faithful := by
    cases invocation with
    | none => exact .null
    | some id => exact .str id
  have hseconds : Json.Fits record.stamp.seconds := by
    have hlow : -2 ^ 63 ≤ record.seconds.toInt := record.seconds.le_toInt
    have hhigh : record.seconds.toInt < 2 ^ 63 := record.seconds.toInt_lt
    change -((UInt64.size / 2 : Nat) : Int) ≤ record.seconds.toInt ∧
      record.seconds.toInt < (UInt64.size : Int)
    simp only [UInt64.size]
    omega
  have hkeys : (["event", "invocation", "level", "message", "time", "timestamp"] : List String).Nodup := by
    decide
  apply Json.Faithful.obj
  · exact hkeys
  · intro p hp
    simp only [List.mem_cons, List.not_mem_nil, or_false] at hp
    rcases hp with rfl | rfl | rfl | rfl | rfl | rfl
    · exact .str _
    · exact hinvocation
    · exact .str _
    · exact .str _
    · exact .str _
    · exact .int hseconds

theorem newline_not_mem_text : '\n' ∉ (record.text invocation).toList := by
  rw [text, Json.render, String.toList_ofList]
  exact (record.faithful_entry invocation).newline_not_mem

theorem text_ne_empty : record.text invocation ≠ "" := by
  intro hempty
  have hparts := congrArg String.toList hempty
  rw [text, Json.render, String.toList_ofList] at hparts
  cases hparts

theorem parse_text :
    Json.parse (record.text invocation) = some (RuntimeLog.entry record.stamp invocation record.line) :=
  (record.faithful_entry invocation).parse_render

theorem parse?_text :
    LogEntry.parse? (record.text invocation) = some ⟨record.line, invocation, record.stamp⟩ := by
  have hentry : LogEntry.ofJson? (RuntimeLog.entry record.stamp invocation record.line) =
      some ⟨record.line, invocation, record.stamp⟩ := by
    have hlevel := LogLevel.ofText?_text record.line.level
    cases invocation <;> simp [LogEntry.ofJson?, RuntimeLog.entry, Json.textAt?, Json.optionalTextAt?,
      Json.get?, Json.lookup, Json.text?, Json.int?, Json.ofOption, hlevel]
  rw [LogEntry.parse?, parse_text]
  exact hentry

theorem toldBy_text : LogLine.ToldBy invocation record.line (record.text invocation) :=
  ⟨_, record.parse_text invocation, rfl, rfl, rfl, rfl⟩

end LogRecord

namespace StepLog

/-- The log after some records, one after the other. -/
def recordAll (records : List LogRecord) (log : StepLog) : StepLog :=
  records.foldl (fun log record => log.record record.stamp record.line) log

variable (records : List LogRecord) (log : StepLog)

theorem lines_recordAll : (log.recordAll records).lines = log.lines ++ records.map LogRecord.line := by
  induction records generalizing log with
  | nil => simp [recordAll]
  | cons first rest ih =>
    have hrest := ih (log.record first.stamp first.line)
    simpa [recordAll] using hrest

theorem containsEvent_recordAll (event : String) : (log.recordAll records).containsEvent event =
    (log.containsEvent event || records.any fun record => record.line.event == event) := by
  rw [containsEvent, lines_recordAll, List.any_append, List.any_map]
  rfl

variable {log} {file : RuntimeLog}

/-- A file that cannot be written stays as it is. -/
theorem runtime_recordAll_of_blocked (hruntime : log.runtime = some file) (hfile : file.writable = false) :
    (log.recordAll records).runtime = some file := by
  induction records generalizing log with
  | nil => exact hruntime
  | cons first rest ih =>
    have hfirst : (log.record first.stamp first.line).runtime = some file := by
      simp [record, hruntime, RuntimeLog.append, hfile]
    exact ih hfirst

/-- A file that can be written has a text more for each record, with a line break behind it. -/
theorem runtime_recordAll (hruntime : log.runtime = some file) (hfile : file.writable = true) :
    ∃ content, (log.recordAll records).runtime = some { file with content := content } ∧
      content.toList = file.content.toList ++
        (records.map fun record => (record.text log.invocation).toList).flatMap
          fun part => part ++ ['\n'] := by
  induction records generalizing log file with
  | nil => exact ⟨file.content, hruntime, by simp⟩
  | cons first rest ih =>
    have hfirst : (log.record first.stamp first.line).runtime =
        some { file with content := file.content ++ first.text log.invocation ++ "\n" } := by
      simp [record, hruntime, RuntimeLog.append, hfile, LogRecord.text]
    obtain ⟨content, hrest, hcontent⟩ := ih hfirst hfile
    refine ⟨content, hrest, ?_⟩
    rw [hcontent]
    simp [record, String.toList_append]

/-- Reading the file gives the records back. -/
theorem entries?_of_splitOn {invocation : Option String}
    (hlines : Text.splitOn '\n' file.content.toList =
      (records.map fun record => (record.text invocation).toList) ++ [[]]) :
    file.entries? = some (records.map fun record => ⟨record.line, invocation, record.stamp⟩) := by
  have htexts : file.fileLines = records.map (LogRecord.text invocation) := by
    rw [RuntimeLog.fileLines, hlines, List.dropLast_concat, List.map_map]
    simp [Function.comp_def]
  have hread (records : List LogRecord) : (records.map (LogRecord.text invocation)).mapM LogEntry.parse? =
      some (records.map fun record => ⟨record.line, invocation, record.stamp⟩) := by
    induction records with
    | nil => rfl
    | cons first rest ih => simp [first.parse?_text, ih]
  rw [RuntimeLog.entries?, htexts, hread]

/-- A file that was empty holds one line for each record, in the order of the records, and each line tells
what was recorded, whatever stands in its texts. A file that cannot be written stays as it is. What is kept in
memory is the same without a file, with one, and with one that cannot be written. -/
theorem recordAll_lossless (records : List LogRecord) (log : StepLog) (path : Path) (former : String) :
    (∃ file texts, ({ log with runtime := some { path, writable := true } }.recordAll records).runtime =
        some file ∧ file.path = path ∧
      Text.splitOn '\n' file.content.toList = texts.map String.toList ++ [[]] ∧
      List.Forall₂ (fun record text => text ≠ "" ∧ LogLine.ToldBy log.invocation record.line text)
        records texts ∧
      file.entries? = some (records.map fun record => ⟨record.line, log.invocation, record.stamp⟩)) ∧
    ({ log with runtime := some { path, writable := false, content := former } }.recordAll records).runtime =
      some { path, writable := false, content := former } ∧
    ∀ runtime, let recorded := { log with runtime }.recordAll records
      recorded.lines = log.lines ++ records.map LogRecord.line ∧
      recorded.messages = log.messages ++ records.map (·.line.message) ∧
      ∀ event, recorded.containsEvent event =
        (log.containsEvent event || records.any fun record => record.line.event == event) := by
  refine ⟨?_, runtime_recordAll_of_blocked records rfl rfl, ?_⟩
  · have hruntime : ({ log with runtime := some { path, writable := true } } : StepLog).runtime =
        some { path, writable := true } := rfl
    obtain ⟨content, hfile, hcontent⟩ := runtime_recordAll records hruntime rfl
    have hlines : Text.splitOn '\n' content.toList =
        (records.map fun record => (record.text log.invocation).toList) ++ [[]] := by
      rw [hcontent, String.toList_empty, List.nil_append]
      apply Text.splitOn_flatMap
      intro part hpart
      obtain ⟨record, -, rfl⟩ := List.mem_map.mp hpart
      exact record.newline_not_mem_text log.invocation
    refine ⟨_, records.map (LogRecord.text log.invocation), hfile, rfl, ?_, ?_,
      entries?_of_splitOn records hlines⟩
    · rw [hlines, List.map_map]
      rfl
    · rw [List.forall₂_map_right_iff, List.forall₂_same]
      intro record _
      exact ⟨record.text_ne_empty log.invocation, record.toldBy_text log.invocation⟩
  · intro runtime recorded
    have hlines : recorded.lines = log.lines ++ records.map LogRecord.line := lines_recordAll _ _
    refine ⟨hlines, ?_, fun event => containsEvent_recordAll _ _ event⟩
    rw [messages, hlines, List.map_append, List.map_map]
    rfl

end StepLog

end GuardedRun
