import GuardedRun.Cli.Program
import GuardedRun.Proofs.Startup
import GuardedRun.Proofs.Vocabulary

/-! What a call has to get past before it turns to the engine. Its arguments have to be those of a command,
its settings have to load, and the place of its log has to be there; and whatever the command is, the
first thing it does is to look the engine up. -/

namespace GuardedRun.Cli

open MonadSession Session

variable {σ : Type}

/-- The words are a command, seen from a working directory, if it is known. -/
inductive Understood (directory : Except String Path) : List String → Command → Prop
  | run {rest request} (accepted : parseRun directory rest = .ok request) :
    Understood directory ("run" :: rest) (.run request)
  | regenerateReport {rest request} (accepted : parseReport directory rest = .ok request) :
    Understood directory ("regenerate-report" :: rest) (.regenerateReport request)
  | closeProject {rest project} (accepted : parseClose directory rest = .ok project) :
    Understood directory ("close-project" :: rest) (.closeProject project)
  | ping : Understood directory ["ping"] .ping
  | startEngine : Understood directory ["start-engine"] .startEngine

/-- The words ask for help, or for nothing. -/
inductive AsksHelp : List String → Prop
  | nothing : AsksHelp []
  | help {word} (spelled : word ∈ ["help", "--help", "-h"]) (rest) : AsksHelp (word :: rest)

/-- A runtime log is to be kept, and there is no state root that its directory could be made in. -/
def LogUnplaced (host : Host σ) (settings : Settings) (outside : σ) : Prop :=
  settings.logging.runtimeLog = true ∧ ∀ home, host.home outside = some home →
    ∃ reason, (host.createDirectory (StateRoot.ofHome home).logDirectory outside).1 = .error reason

/-- The directory in which a call reads its arguments, which it does once all else is prepared. -/
def readingDirectory (host : Host σ) (named : Option Path) (outside : σ) : Except String Path :=
  host.workingDirectory (prepare host named outside).2

/-- What keeps a call from the engine. -/
inductive Barred (host : Host σ) (arguments : List String) (outside : σ) : Prop
  | unsplit {e} (split : splitSettings arguments = .error e)
  | misread {named words} (split : splitSettings arguments = .ok (named, words))
    (misread : ∀ command, ¬ Understood (readingDirectory host named outside) words command)
  | unset {named words e} (split : splitSettings arguments = .ok (named, words))
    (unset : Settings.load host.readSettings (host.files outside) (host.home outside) named = .error e)
  | unprepared {named words settings} (split : splitSettings arguments = .ok (named, words))
    (loaded : Settings.load host.readSettings (host.files outside) (host.home outside) named =
      .ok settings)
    (unplaced : LogUnplaced host settings outside)

/-- What is left of the arguments asks for help. -/
def AsksForHelp (arguments : List String) : Prop :=
  ∃ named words, splitSettings arguments = .ok (named, words) ∧ AsksHelp words

/-- What is shown in the end of a call that ends. -/
def shown? (ending : Ending σ) : Option Display := ending.1.map fun result => .of result ending.2

/-- How a call ends of which the engine hears nothing. -/
structure TurnedAway (host : Host σ) (arguments : List String) (outside : σ) (ending : Ending σ) :
    Prop where
  /-- Nothing was sent and nothing was started, -/
  silent : ending.2.events = []
  /-- and of all that is outside at most the place of the log was made. -/
  untouched : ending.2.outside = outside ∨
    ∃ directory, ending.2.outside = (host.createDirectory directory outside).2
  helped : AsksForHelp arguments → ∃ display, shown? ending = some display ∧
    display.output = helpText ++ "\n" ∧ display.exitCode = 0
  failed : ¬ AsksForHelp arguments → ∃ display, shown? ending = some display ∧ display.exitCode = 1

/-- How a call begins that comes as far as the engine: first it is looked up, and a program is started only
where the settings allow that and the command is not to look alone. -/
structure Admitted (host : Host σ) (settings : Settings) (outside : σ) (command : Command)
    (events : List Event) : Prop where
  first : ∃ rest, events = .asked .ping
    ((host.environment settings.endpoint settings.timeouts).answer .ping outside).1 :: rest
  starts : ∀ executable arguments result, .launched executable arguments result ∈ events →
    settings.bootstrap.enabled = true ∧ command ≠ .ping

/-- How a call goes. -/
inductive Conducted (host : Host σ) (rounds : Nat) (arguments : List String) (outside : σ) :
    Ending σ → Prop
  | unsplit {e} (split : splitSettings arguments = .error e) :
    Conducted host rounds arguments outside (settled (.error (.failed e.message)) outside)
  | helped {named words} (split : splitSettings arguments = .ok (named, words)) (asks : AsksHelp words) :
    Conducted host rounds arguments outside (settled (.ok helpText) outside)
  | unknown {named words message} (split : splitSettings arguments = .ok (named, words))
    (asks : ¬ AsksHelp words) (misread : ∀ directory command, ¬ Understood directory words command) :
    Conducted host rounds arguments outside (settled (.error (.failed message)) outside)
  | unprepared {named words e outside'} (split : splitSettings arguments = .ok (named, words))
    (asks : ¬ AsksHelp words) (prepared : prepare host named outside = (.error e, outside')) :
    Conducted host rounds arguments outside (settled (.error (.failed e.message)) outside')
  | misread {named words settings log outside' message}
    (split : splitSettings arguments = .ok (named, words)) (asks : ¬ AsksHelp words)
    (prepared : prepare host named outside = (.ok (settings, log), outside'))
    (misread : ∀ command, ¬ Understood (host.workingDirectory outside') words command) :
    Conducted host rounds arguments outside (some (.error (.failed message)),
      { outside := outside', interrupted := host.interrupted outside', log })
  | performed {named words settings log outside' command}
    (split : splitSettings arguments = .ok (named, words)) (asks : ¬ AsksHelp words)
    (prepared : prepare host named outside = (.ok (settings, log), outside'))
    (understood : Understood (host.workingDirectory outside') words command) :
    Conducted host rounds arguments outside
      ((Command.perform settings rounds command).run.run
        (host.environment settings.endpoint settings.timeouts)
        { outside := outside', interrupted := host.interrupted outside', log })

variable {host : Host σ} {rounds : Nat} {arguments words rest : List String} {outside : σ}
  {directory : Except String Path} {named : Option Path} {command : Command} {word : String}

theorem Verb.parse_eq_help : Verb.parse word = .help ↔ AsksHelp (word :: rest) := by
  constructor
  · intro h
    rw [Verb.parse.eq_def] at h
    split at h <;> first | exact .help (by decide) rest | cases h
  · rintro ⟨⟩
    next h =>
      simp only [List.mem_cons, List.not_mem_nil, or_false] at h
      rcases h with rfl | rfl | rfl <;> rfl

theorem Understood.reads (h : Understood directory (word :: rest) command) :
    Command.parse? directory (Verb.parse word) rest = .ok (some command) := by
  cases h with
  | run accepted | regenerateReport accepted | closeProject accepted =>
    simp only [Verb.parse, Command.parse?, accepted]
    rfl
  | ping => rfl
  | startEngine => rfl

theorem map_some_eq_ok {α : Type} {x : Except FlagError α} {f : α → Command} {found : Option Command} :
    (x.map fun a => some (f a)) = .ok found ↔ ∃ a, x = .ok a ∧ some (f a) = found := by
  cases x <;> simp [Except.map]

theorem understood_of_parse (h : Command.parse? directory (Verb.parse word) rest = .ok (some command)) :
    Understood directory (word :: rest) command := by
  rw [Verb.parse.eq_def] at h
  split at h
  · obtain ⟨request, hread, hcommand⟩ := map_some_eq_ok.mp h
    cases hcommand
    exact .run hread
  · obtain ⟨request, hread, hcommand⟩ := map_some_eq_ok.mp h
    cases hcommand
    exact .regenerateReport hread
  · obtain ⟨project, hread, hcommand⟩ := map_some_eq_ok.mp h
    cases hcommand
    exact .closeProject hread
  · obtain ⟨u, hread, hcommand⟩ := map_some_eq_ok.mp h
    cases hcommand
    cases rest with
    | nil => exact .ping
    | cons argument rest => cases hread
  · obtain ⟨u, hread, hcommand⟩ := map_some_eq_ok.mp h
    cases hcommand
    cases rest with
    | nil => exact .startEngine
    | cons argument rest => cases hread
  all_goals cases h

/-- Only the verbs without a command are read as none. -/
theorem verb_of_parse_none {verb : Verb} (h : Command.parse? directory verb rest = .ok none) :
    verb = .help ∨ verb = .unknown := by
  cases verb with
  | help => exact .inl rfl
  | unknown => exact .inr rfl
  | _ =>
    obtain ⟨_, -, hcommand⟩ := map_some_eq_ok.mp h
    cases hcommand

theorem work_conducted (host : Host σ) (rounds : Nat) (outside : σ)
    (split : splitSettings arguments = .ok (named, word :: rest))
    (asks : ¬ AsksHelp (word :: rest)) (hverb : Verb.parse word ≠ .unknown) :
    Conducted host rounds arguments outside
      (work host rounds named (Verb.parse word) rest outside) := by
  unfold work
  rcases hprepare : prepare host named outside with ⟨e | ⟨settings, log⟩, outside'⟩
  · exact .unprepared split asks hprepare
  · dsimp only
    cases hread : Command.parse? (host.workingDirectory outside') (Verb.parse word) rest with
    | error e =>
      refine .misread split asks hprepare fun command h => ?_
      rw [h.reads] at hread
      cases hread
    | ok found =>
      cases found with
      | some command => exact .performed split asks hprepare (understood_of_parse hread)
      | none =>
        rcases verb_of_parse_none hread with hhelp | hunknown
        · exact absurd (Verb.parse_eq_help.mp hhelp) asks
        · exact absurd hunknown hverb

/-- A call goes in one of these ways. -/
theorem run_conducted (host : Host σ) (rounds : Nat) (arguments : List String) (outside : σ) :
    Conducted host rounds arguments outside (run host rounds arguments outside) := by
  unfold run
  rcases hsplit : splitSettings arguments with e | ⟨named, _ | ⟨word, rest⟩⟩
  · exact .unsplit hsplit
  · exact .helped hsplit .nothing
  · dsimp only
    by_cases hhelp : AsksHelp (word :: rest)
    · rw [Verb.parse_eq_help.mpr hhelp]
      exact .helped hsplit hhelp
    · have hwork (hverb : Verb.parse word ≠ .unknown) :=
        work_conducted host rounds outside hsplit hhelp hverb
      cases hverb : Verb.parse word with
      | help => exact absurd (Verb.parse_eq_help.mp hverb) hhelp
      | unknown =>
        refine .unknown hsplit hhelp fun directory command h => ?_
        have hreads := h.reads
        rw [hverb] at hreads
        cases hreads
      | _ =>
        rw [hverb] at hwork
        exact hwork (by decide)

theorem not_understood_help (h : AsksHelp words) : ¬ Understood directory words command := by
  rintro ⟨⟩ <;> cases h with
  | help spelled => revert spelled; decide

theorem openLog_outside (host : Host σ) (settings : Settings) (outside : σ) :
    (openLog host settings outside).2 = outside ∨
      ∃ directory, (openLog host settings outside).2 = (host.createDirectory directory outside).2 := by
  rw [openLog]
  split
  · split
    · exact .inl rfl
    · next root _ =>
      right
      refine ⟨root.logDirectory, ?_⟩
      rcases host.createDirectory root.logDirectory outside with ⟨reason | u, outside'⟩ <;> rfl
  · exact .inl rfl

theorem prepare_outside (host : Host σ) (named : Option Path) (outside : σ) :
    (prepare host named outside).2 = outside ∨
      ∃ directory, (prepare host named outside).2 = (host.createDirectory directory outside).2 := by
  rw [prepare]
  split
  · exact .inl rfl
  · next settings _ => exact openLog_outside host settings outside

theorem openLog_eq_error {settings : Settings} :
    (∃ e, (openLog host settings outside).1 = .error e) ↔ LogUnplaced host settings outside := by
  rw [openLog, LogUnplaced]
  by_cases hlogs : settings.logging.runtimeLog = true
  · cases hhome : host.home outside with
    | none => simp [hlogs, StateRoot.ofHome?]
    | some home =>
      rcases hmade : host.createDirectory (StateRoot.ofHome home).logDirectory outside with
        ⟨reason | u, outside'⟩ <;>
      simp [hlogs, StateRoot.ofHome?, hmade]
  · simp [hlogs]

/-- There is nothing to work with where the settings do not load or there is no place for the log. -/
theorem prepare_eq_error : (∃ e, (prepare host named outside).1 = .error e) ↔
    (∃ e, Settings.load host.readSettings (host.files outside) (host.home outside) named = .error e) ∨
      ∃ settings, Settings.load host.readSettings (host.files outside) (host.home outside) named =
        .ok settings ∧ LogUnplaced host settings outside := by
  simp only [← openLog_eq_error]
  rw [prepare]
  cases Settings.load host.readSettings (host.files outside) (host.home outside) named with
  | error e => simp
  | ok settings =>
    rcases hlog : openLog host settings outside with ⟨e | log, outside'⟩ <;> simp [hlog, Except.map]

theorem barred_iff : Barred host arguments outside ↔ (∃ e, splitSettings arguments = .error e) ∨
    ∃ named words, splitSettings arguments = .ok (named, words) ∧
      ((∀ command, ¬ Understood (readingDirectory host named outside) words command) ∨
        ∃ e, (prepare host named outside).1 = .error e) := by
  simp only [prepare_eq_error]
  constructor
  · intro h
    cases h with
    | unsplit split => exact .inl ⟨_, split⟩
    | misread split misread => exact .inr ⟨_, _, split, .inl misread⟩
    | unset split unset => exact .inr ⟨_, _, split, .inr (.inl ⟨_, unset⟩)⟩
    | unprepared split loaded unplaced => exact .inr ⟨_, _, split, .inr (.inr ⟨_, loaded, unplaced⟩)⟩
  · rintro (⟨e, split⟩ | ⟨named, words, split, misread | ⟨e, unset⟩ | ⟨settings, loaded, unplaced⟩⟩)
    · exact .unsplit split
    · exact .misread split misread
    · exact .unset split unset
    · exact .unprepared split loaded unplaced

theorem barred_of_asksForHelp (h : AsksForHelp arguments) : Barred host arguments outside := by
  obtain ⟨named, words, split, asks⟩ := h
  exact .misread split fun command => not_understood_help asks

/-- A call that a bar keeps from the engine is settled before there is a session. -/
theorem Barred.turnedAway (h : Barred host arguments outside) :
    TurnedAway host arguments outside (run host rounds arguments outside) := by
  have hconducted := run_conducted host rounds arguments outside
  generalize run host rounds arguments outside = ending at hconducted ⊢
  have hfailed (message : String) (world : World σ) : ∃ display,
      shown? (some (.error (.failed message)), world) = some display ∧ display.exitCode = 1 :=
    ⟨_, rfl, rfl⟩
  have hhelp {named words} (split : splitSettings arguments = .ok (named, words))
      (asks : ¬ AsksHelp words) : ¬ AsksForHelp arguments := by
    rintro ⟨named', words', split', asks'⟩
    rw [split] at split'
    cases split'
    exact asks asks'
  -- up to the preparation nothing outside is touched, and no session has begun before it is over
  cases hconducted with
  | unsplit split =>
    refine ⟨rfl, .inl rfl, fun hasks => ?_, fun _ => hfailed _ _⟩
    obtain ⟨named, words, split', -⟩ := hasks
    rw [split] at split'
    cases split'
  | helped split asks =>
    refine ⟨rfl, .inl rfl, fun _ => ⟨_, rfl, rfl, rfl⟩, fun hasks => ?_⟩
    exact absurd ⟨_, _, split, asks⟩ hasks
  | unknown split asks misread =>
    exact ⟨rfl, .inl rfl, fun hasks => absurd hasks (hhelp split asks), fun _ => hfailed _ _⟩
  | @unprepared named words e outside' split asks prepared =>
    refine ⟨rfl, ?_, fun hasks => absurd hasks (hhelp split asks), fun _ => hfailed _ _⟩
    have houtside := prepare_outside host named outside
    rwa [prepared] at houtside
  | @misread named words settings log outside' message split asks prepared misread =>
    refine ⟨rfl, ?_, fun hasks => absurd hasks (hhelp split asks), fun _ => hfailed _ _⟩
    have houtside := prepare_outside host named outside
    rwa [prepared] at houtside
  | performed split asks prepared understood =>
    -- there is no bar to this call
    exfalso
    rcases barred_iff.mp h with ⟨e, split'⟩ | ⟨named', words', split', hbar⟩
    · rw [split] at split'
      cases split'
    · rw [split] at split'
      cases split'
      rcases hbar with misread | ⟨e, unset⟩
      · rw [readingDirectory, prepared] at misread
        exact misread _ understood
      · rw [prepared] at unset
        cases unset

/-- The engine is looked up before anything else, and a program is started only if it may be. -/
def LooksUpFirst (may : Prop) (events : List Event) : Prop :=
  ∃ a rest, events = .asked .ping a :: rest ∧
    ∀ executable arguments result, .launched executable arguments result ∈ rest → may

theorem LooksUpFirst.mono {may may' : Prop} {events : List Event} (h : LooksUpFirst may events)
    (hmay : may → may') : LooksUpFirst may' events := by
  obtain ⟨a, rest, rfl, hrest⟩ := h
  exact ⟨a, rest, rfl, fun executable arguments result hmem =>
    hmay (hrest executable arguments result hmem)⟩

theorem LooksUpFirst.append {may : Prop} {events later : List Event} (h : LooksUpFirst may events)
    (hlater : ∀ executable arguments result, .launched executable arguments result ∉ later) :
    LooksUpFirst may (events ++ later) := by
  obtain ⟨a, rest, rfl, hrest⟩ := h
  refine ⟨a, rest ++ later, rfl, fun executable arguments result hmem => ?_⟩
  rcases List.mem_append.mp hmem with hmem | hmem
  · exact hrest executable arguments result hmem
  · exact absurd hmem (hlater executable arguments result)

theorem looksUpFirst_of_connecting {env : Environment σ} {endpoint : Endpoint} {bootstrap : Bootstrap}
    {s : σ} {flag : Bool} {events : List Event} {r : Except ConnectError Unit}
    (h : Connecting env endpoint bootstrap s flag events r) {may : Prop} (hmay : may) :
    LooksUpFirst may events := by
  cases h with
  | found raised => exact ⟨_, _, rfl, fun _ _ _ _ => hmay⟩
  | unstarted e raised starting fault start => exact ⟨_, _, rfl, fun _ _ _ _ => hmay⟩
  | retried e starting a raised start => exact ⟨_, _, rfl, fun _ _ _ _ => hmay⟩

variable {ε ε' α β : Type} {env : Environment σ} {w : World σ}

/-- Once the engine has been looked up, what follows starts nothing. -/
theorem looksUpFirst_bind {may : Prop} {s : Session σ α} {f : α → Session σ β} (events : List String)
    (hs : Traces env w s fun t _ => LooksUpFirst may t.events) (hf : ∀ a, (f a).Notes events) :
    Traces env w (s >>= f) fun t _ => LooksUpFirst may t.events := by
  apply hs.bind
  · exact fun t ht => ht
  · intro t a w₁ _ ht
    exact (hf a env w₁).mono fun t' _ ht' => ht.append ht'.starts

theorem looksUpFirst_adapt_bind {may : Prop} {x : Attempt σ ε α} {g : ε → ε'} {f : α → Attempt σ ε' β}
    (events : List String) (hx : Traces env w x.run fun t _ => LooksUpFirst may t.events)
    (hf : ∀ a, Attempt.Notes events (f a)) :
    Traces env w (ExceptT.adapt g x >>= f).run fun t _ => LooksUpFirst may t.events := by
  have hadapt : Traces env w (ExceptT.adapt g x).run fun t _ => LooksUpFirst may t.events :=
    looksUpFirst_bind events hx fun _ => .pure _
  rw [Attempt.run_bind]
  apply looksUpFirst_bind events hadapt
  intro r
  cases r with
  | ok a => exact hf a
  | error e => exact .pure _

theorem looksUpFirst_connect (endpoint : Endpoint) :
    Traces env w (Attempt.connect endpoint).run fun t _ => LooksUpFirst False t.events := by
  have hask : Traces env w (Session.ask .ping) fun t _ => LooksUpFirst False t.events := by
    refine .of_returns (.ask fun raised => ⟨_, _, rfl, fun executable arguments result hmem => ?_⟩)
    cases raised <;> simp at hmem
  rw [Attempt.connect, Attempt.run_lookup_bind]
  apply looksUpFirst_bind [] hask
  intro a
  cases a <;> exact .pure _

theorem looksUpFirst_openEngine (settings : Settings) :
    Traces env w (openEngine settings).run fun t _ =>
      LooksUpFirst (settings.bootstrap.enabled = true) t.events := by
  unfold openEngine
  dsimp only
  split
  · next henabled =>
    apply (Attempt.traces_ensureRunning settings.endpoint settings.bootstrapOptions w).mono
    intro t o h
    obtain ⟨r, -, hconnecting⟩ := h
    exact looksUpFirst_of_connecting hconnecting henabled
  · rw [Attempt.run_lift_bind]
    have hconnect : Traces env w (Attempt.connect settings.endpoint).run fun t _ =>
        LooksUpFirst (settings.bootstrap.enabled = true) t.events :=
      (looksUpFirst_connect settings.endpoint).mono fun t _ h => h.mono False.elim
    apply looksUpFirst_bind ["engine.connected", "engine.not_running"] hconnect
    intro r
    cases r with
    | ok u => exact Attempt.Notes.note (by decide)
    | error e => exact (Attempt.Notes.note (by decide)).bind fun _ => .throw _

/-- Whatever the command, the engine is looked up first; only looking at it never starts a program. -/
theorem looksUpFirst_perform (settings : Settings) (rounds : Nat) (command : Command) :
    Traces env w (command.perform settings rounds).run fun t _ =>
      LooksUpFirst (settings.bootstrap.enabled = true ∧ command ≠ .ping) t.events := by
  have hopen (hcommand : command ≠ .ping) : Traces env w (openEngine settings).run fun t _ =>
      LooksUpFirst (settings.bootstrap.enabled = true ∧ command ≠ .ping) t.events :=
    (looksUpFirst_openEngine settings).mono fun t _ h => h.mono fun henabled => ⟨henabled, hcommand⟩
  cases command with
  | ping =>
    have hconnect : Traces env w (Attempt.connect settings.endpoint).run fun t _ =>
        LooksUpFirst (settings.bootstrap.enabled = true ∧ Command.ping ≠ .ping) t.events :=
      (looksUpFirst_connect settings.endpoint).mono fun t _ h => h.mono False.elim
    exact looksUpFirst_adapt_bind [] hconnect fun _ => .pure _
  | startEngine => exact looksUpFirst_adapt_bind [] (hopen (by simp)) fun _ => .pure _
  | closeProject project =>
    exact looksUpFirst_adapt_bind _ (hopen (by simp)) fun _ =>
      (Attempt.notes_closeProject project).adapt.bind fun _ => .pure _
  | regenerateReport request =>
    exact looksUpFirst_adapt_bind _ (hopen (by simp)) fun _ =>
      (Request.notes_orchestrate (orchestration settings rounds) (.report request)).adapt.bind
        fun _ => .pure _
  | run request =>
    exact looksUpFirst_adapt_bind _ (hopen (by simp)) fun _ =>
      (Request.notes_orchestrate (orchestration settings rounds) (.execution request)).adapt.bind
        fun _ => .pure _

/-- A call that nothing bars comes as far as the engine. -/
theorem admitted_of_not_barred (h : ¬ Barred host arguments outside) :
    ∃ named words settings log outside' command, splitSettings arguments = .ok (named, words) ∧
      prepare host named outside = (.ok (settings, log), outside') ∧
      Understood (host.workingDirectory outside') words command ∧
      Admitted host settings outside' command (run host rounds arguments outside).2.events := by
  have hconducted := run_conducted host rounds arguments outside
  generalize run host rounds arguments outside = ending at hconducted ⊢
  cases hconducted with
  | unsplit split => exact absurd (.unsplit split) h
  | helped split asks => exact absurd (barred_of_asksForHelp ⟨_, _, split, asks⟩) h
  | unknown split asks misread => exact absurd (.misread split (misread _)) h
  | @unprepared named words e outside' split asks prepared =>
    have herror : ∃ e, (prepare host named outside).1 = .error e := ⟨e, by rw [prepared]⟩
    exact absurd (barred_iff.mpr (.inr ⟨_, _, split, .inr herror⟩)) h
  | misread split asks prepared misread =>
    refine absurd (.misread split ?_) h
    rwa [readingDirectory, prepared]
  | @performed named words settings log outside' command split asks prepared understood =>
    refine ⟨named, words, settings, log, outside', command, split, prepared, understood, ?_⟩
    have hlooks : Traces (host.environment settings.endpoint settings.timeouts)
        { outside := outside', interrupted := host.interrupted outside', log }
        (command.perform settings rounds).run fun t _ =>
          LooksUpFirst (settings.bootstrap.enabled = true ∧ command ≠ .ping) t.events :=
      looksUpFirst_perform settings rounds command
    -- the session starts with no events, so those of the trace are all there are in the end
    obtain ⟨t, hl, a, rest, hevents, hstarts⟩ := hlooks
    have hsame := hl.events
    rw [List.nil_append] at hsame
    have hgenuine := hl.genuine
    rw [hevents] at hgenuine
    obtain ⟨hfirst, -⟩ := hgenuine
    constructor
    · exact ⟨rest, by rw [hsame, hevents, ← hfirst]⟩
    · intro executable arguments' result hmem
      rw [hsame, hevents, List.mem_cons] at hmem
      rcases hmem with hmem | hmem
      · cases hmem
      · exact hstarts executable arguments' result hmem

/-- Nothing of a mistaken call comes to the engine. Unless the arguments are those of a command, the
settings load and the state root is there for a log that is to be kept, nothing is looked up, sent or
started, and the call fails if it does not ask for help, which is given whatever the settings are. A call
that nothing bars looks the engine up first; a program is started only where the settings allow it, and
never to ping. -/
theorem engine_hears_only_commands (host : Host σ) (rounds : Nat) (arguments : List String) (outside : σ) :
    (AsksForHelp arguments → Barred host arguments outside) ∧
    (Barred host arguments outside →
      TurnedAway host arguments outside (run host rounds arguments outside)) ∧
    (¬ Barred host arguments outside →
      ∃ named words settings log outside' command, splitSettings arguments = .ok (named, words) ∧
        prepare host named outside = (.ok (settings, log), outside') ∧
        Understood (host.workingDirectory outside') words command ∧
        Admitted host settings outside' command (run host rounds arguments outside).2.events) :=
  ⟨barred_of_asksForHelp, Barred.turnedAway, admitted_of_not_barred⟩

/-- A host on which an engine answers, with settings that want no log and a home that is no directory. -/
def placeless : Host Unit where
  send _ _ _ outside := (.ok ⟨200, .ofText "\x7b\"ok\": true\x7d"⟩, outside)
  readEnvelope := Http.Envelope.read
  readSettings := Settings.ofText
  launch _ _ outside := (.error "nothing is started here", outside)
  pause _ outside := outside
  interrupted _ := false
  clock _ := 0
  stamp _ := .ofMilliseconds 0
  files _ := { isFile := fun _ => true, read := fun _ => .ok "logging:\n  runtime_log: false\n" }
  createDirectory _ outside := (.error "not a directory", outside)
  isAppendable _ _ := false
  home _ := some ⟨"/home/plain"⟩
  workingDirectory _ := .ok ⟨"/"⟩
  sample _ := 0

theorem load_placeless : Settings.load placeless.readSettings (placeless.files ()) (placeless.home ())
    (some ⟨"/settings.yaml"⟩) = .ok { logging := { runtimeLog := false } } := by
  have htext : Settings.ofText "logging:\n  runtime_log: false\n" =
      .ok { logging := { runtimeLog := false } } := by decide +kernel
  simp only [Settings.load, Settings.readNamed, Settings.readFile, placeless, htext]
  rfl

theorem run_ping {settings : Settings} (h : (env.answer .ping w.outside).1 = .ok ()) :
    (Command.perform settings rounds .ping).run.run env w =
      (some (.ok s!"engine reachable at {settings.endpoint}"),
        w.after env (.asked .ping (.ok ())) (env.answer .ping w.outside).2) := by
  have hask : (Session.ask .ping).run env w =
      (some (.ok ()), w.after env (.asked .ping (.ok ())) (env.answer .ping w.outside).2) := by
    rw [← h]
    rfl
  rw [Command.perform, Attempt.run_bind, Session.run_bind]
  have hconnect : (ExceptT.adapt Failure.ofConnect (Attempt.connect settings.endpoint)).run.run env w =
      (some (.ok ()), w.after env (.asked .ping (.ok ())) (env.answer .ping w.outside).2) := by
    change ((Attempt.connect settings.endpoint).run >>= fun r =>
      Pure.pure (r.mapError Failure.ofConnect)).run env w = _
    rw [Attempt.connect, Attempt.run_lookup_bind, Session.run_bind, Session.run_bind, hask]
    rfl
  rw [hconnect]
  rfl

/-- A state root is asked for where a log is kept and nowhere else: without one a call comes to the engine
although there is no place that the root could be made in. -/
theorem unlogged_ping_heard :
    (∀ directory, (placeless.createDirectory directory ()).1 = .error "not a directory") ∧
    (run placeless 0 ["ping", "--settings", "/settings.yaml"] ()).2.events = [.asked .ping (.ok ())] ∧
    (shown? (run placeless 0 ["ping", "--settings", "/settings.yaml"] ())).map (·.exitCode) = some 0 := by
  have hprepare : prepare placeless (some ⟨"/settings.yaml"⟩) () =
      (.ok ({ logging := { runtimeLog := false } }, { echo := true }), ()) := by
    rw [prepare, load_placeless]
    rfl
  have hrun : run placeless 0 ["ping", "--settings", "/settings.yaml"] () =
      (Command.perform { logging := { runtimeLog := false } } 0 .ping).run.run
        (placeless.environment { logging := { runtimeLog := false } : Settings }.endpoint
          { logging := { runtimeLog := false } : Settings }.timeouts)
        { outside := (), interrupted := false, log := { echo := true } } := by
    change work placeless 0 (some ⟨"/settings.yaml"⟩) .ping [] () = _
    rw [work, hprepare]
    rfl
  have hanswer : Http.interpret Http.Envelope.read .ping
      (.ok ⟨200, .ofText "\x7b\"ok\": true\x7d"⟩) = .ok () := by
    rfl
  rw [hrun, run_ping hanswer]
  exact ⟨fun _ => rfl, rfl, rfl⟩

end GuardedRun.Cli
