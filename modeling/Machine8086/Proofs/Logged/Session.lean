import Machine8086.Proofs.Logged.Listing
import Machine8086.Proofs.Logged.Run

/-!
# The log only observes

A request that does not change the log is answered as if there were no log: reply, simulator and
snapshot are the same for every log, and so are the entries that are offered to it
(`onlyObserves_perform`, and for requests in a row `onlyObserves_performAll`). Of these the log
takes those that its settings allow, each once and in order, and asks for no other text; with lower
levels it takes some of those that it takes with higher ones (`log_only_observes`).
-/

namespace Machine8086

/-- The request changes the settings of the log or where its lines go. -/
def Request.ConfiguresLog : Request → Prop
  | setGlobalLevel _ | setLevel _ _ | resetLevels | openLogFile | closeLogFile => True
  | _ => False

/-- A reply without what it says of the log: whether the text of a message was asked for. -/
def Reply.apartFromLog : Reply → Reply
  | logged _ => done
  | reply => reply

/-! ## Levels -/

namespace LogSettings

variable {a b : LogSettings}

/-- An entry is written unless its level is off or above the level that holds for its category. -/
theorem takes_iff (s : LogSettings) (e : LogEntry) :
    s.takes e = true ↔ e.level ≠ .off ∧ e.level.rank ≤ (s.effective e.category).rank := by
  rw [takes, allows, Bool.and_eq_true, bne_iff_ne, decide_eq_true_iff]

/-- What is written with lower levels is written with higher ones. -/
theorem takes_mono (h : ∀ category, (a.effective category).rank ≤ (b.effective category).rank)
    {e : LogEntry} (htakes : a.takes e = true) : b.takes e = true := by
  obtain ⟨hlevel, hrank⟩ := (a.takes_iff e).1 htakes
  exact (b.takes_iff e).2 ⟨hlevel, Nat.le_trans hrank (h e.category)⟩

theorem filter_takes_sublist
    (h : ∀ category, (a.effective category).rank ≤ (b.effective category).rank)
    (entries : List LogEntry) : (entries.filter a.takes).Sublist (entries.filter b.takes) :=
  List.monotone_filter_right entries fun _ => takes_mono h

end LogSettings

/-! ## Logs of runs -/

namespace Simulator

/-- The log is written to after each step, so in the end it has the events of all. -/
theorem report_runLogged (s : Simulator) (config : RunConfig) (log : Log) :
    (s.runLogged config log).report =
      log.putAll (entriesOf ((s.trace config).report.flatMap Step.events) ++
        entriesOf (s.trace config).endEvents) := by
  have hfold (steps : List Step) : steps.foldl (fun log step => log.report step.events) log =
      log.putAll (entriesOf (steps.flatMap Step.events)) := by
    rw [← Log.report_eq_putAll, Log.report, List.foldl_flatMap]
    rfl
  rw [Log.putAll_append, ← hfold, ← Log.report_eq_putAll, runLogged, runWith_eq_trace]
  rfl

/-- A log that is written to after each step, while the steps are listed, the last first. -/
theorem foldl_list_report {onStep : List Step × Log → Step → List Step × Log}
    (h : ∀ p step, onStep p step = (step :: p.1, p.2.report step.events)) (steps : List Step)
    (p : List Step × Log) :
    steps.foldl onStep p =
      (steps.reverse ++ p.1, p.2.putAll (entriesOf (steps.flatMap Step.events))) := by
  induction steps generalizing p with
  | nil => rfl
  | cons step steps ih =>
    rw [List.foldl_cons, ih, h, List.reverse_cons, List.append_assoc, List.flatMap_cons,
      entriesOf_append, Log.putAll_append, Log.report_eq_putAll]
    rfl

theorem report_traceLogged (s : Simulator) (config : RunConfig) (log : Log) :
    (s.traceLogged config log).report =
      ((s.trace config).report,
        log.putAll (entriesOf ((s.trace config).report.flatMap Step.events) ++
          entriesOf (s.trace config).endEvents)) := by
  rw [traceLogged, runWith_eq_trace, foldl_list_report fun _ _ => rfl, List.append_nil]
  dsimp only
  rw [List.reverse_reverse, Log.putAll_append,
    ← Log.report_eq_putAll _ (s.trace config).endEvents]
  rfl

end Simulator

/-! ## Requests -/

namespace Logged

open LoggedAction

/-- Whatever the log is, the action in place and the operation of a session have this result, up to
what is said of the log, lead from the one session to the other and offer these entries. -/
structure OnlyObserves {α β : Type} (apart : α → β) (action : LoggedAction Empty α)
    (operation : Session → α × Session) (before after : Session) (result : LogSettings → α)
    (entries : List LogEntry) : Prop where
  inPlace : ∀ log calls, action.exec ⟨{ before with log }, calls⟩ =
    .ok (.ok (result log.settings), ⟨{ after with log := log.putAll entries },
      calls ++ entries.map (callOf log.settings)⟩)
  model : ∀ log, operation { before with log } =
    (result log.settings, { after with log := log.putAll entries })
  result_eq : ∀ settings settings', apart (result settings) = apart (result settings')

theorem OnlyObserves.of_does {α β : Type} {apart : α → β} {action : LoggedAction Empty α}
    {operation : Session → α × Session} {s : Session} {result : α} {t : Simulator}
    {entries : List LogEntry} (hdoes : action.Does s.simulator (.ok result) t entries)
    (hmodel : ∀ log, operation { s with log } =
      (result, { s with simulator := t, log := log.putAll entries })) :
    OnlyObserves apart action operation s { s with simulator := t } (fun _ => result) entries where
  inPlace := fun log calls => hdoes log s.saved calls
  model := hmodel
  result_eq := fun _ _ => rfl

theorem does_answer {ε α : Type} {action : LoggedAction ε α} {s t : Simulator}
    {result : Except ε α} {entries : List LogEntry} (h : action.Does s result t entries)
    (reply : α → Reply) (failure : ε → Failure) :
    (answer action reply failure).Does s (.ok (answered reply failure result)) t entries :=
  h.attempt.bind_silent (does_pure _ t)

variable {s : Session}

/-- A request that tells nothing and is answered the same for every log. -/
theorem OnlyObserves.of_silent {request : Request}
    (hplace : ∀ w : Watched, (perform request).exec w =
      .ok (.ok (w.toSession.perform request).1, ⟨(w.toSession.perform request).2, w.calls⟩))
    (hmodel : ∀ log, Session.perform { s with log } request =
      ((s.perform request).1, { (s.perform request).2 with log })) :
    OnlyObserves Reply.apartFromLog (perform request) (fun s => s.perform request) s
      (s.perform request).2 (fun _ => (s.perform request).1) [] where
  inPlace log calls := by
    rw [hplace, hmodel, List.map_nil, List.append_nil]
    rfl
  model := hmodel
  result_eq := fun _ _ => rfl

theorem restore_with_log (s : Session) (snapshot : Json) (log : Log) :
    Session.perform.restore { s with log } snapshot =
      ((Session.perform.restore s snapshot).1,
        { (Session.perform.restore s snapshot).2 with log }) := by
  simp only [Session.perform.restore, Simulator.loadState]
  cases Snapshot.read snapshot <;> rfl

/-- A request that does not change the log is answered as if there were no log. -/
theorem onlyObserves_perform {request : Request} (hrequest : ¬ request.ConfiguresLog)
    (hextent : s.simulator.ExtentInMemory) :
    ∃ after reply entries, OnlyObserves Reply.apartFromLog (perform request)
      (fun s => s.perform request) s after reply entries := by
  cases request with
  | load program start =>
    refine ⟨_, _, _, .of_does (does_answer (does_load program start s.simulator) _ _) ?_⟩
    intro log
    rw [Session.perform, ← Log.report_eq_putAll]
    dsimp only [Session.report]
    cases s.simulator.load program start <;> rfl
  | loadMemory bytes start =>
    refine ⟨_, _, _, .of_does (does_answer (does_loadMemory bytes start s.simulator) _ _) ?_⟩
    intro log
    rw [Session.perform, ← Log.report_eq_putAll]
    dsimp only [Session.report]
    cases s.simulator.memory.load bytes start <;> rfl
  | decode address stop =>
    refine ⟨_, _, _, .of_does (does_answer (does_decode address stop s.simulator) _ _) ?_⟩
    intro log
    rw [Session.perform, ← Log.report_eq_putAll]
    cases Machine8086.decode s.simulator.memory address stop <;> rfl
  | estimate i =>
    refine ⟨_, _, _, .of_does (does_answer (does_estimate i s.simulator) _ _) ?_⟩
    intro log
    rw [Session.perform, ← Log.report_eq_putAll]
    cases i.estimate <;> rfl
  | disassemble =>
    refine ⟨_, _, _, .of_does (does_answer (does_disassemble hextent) _ _) ?_⟩
    intro log
    rw [Session.perform, ← Log.report_eq_putAll]
    dsimp only
    cases s.simulator.listing.disassembly <;> rfl
  | disassembleTo capacity =>
    obtain ⟨result, text, hdoes, hwritten⟩ := does_disassembleTo_limited hextent capacity
    refine ⟨_, _, _, .of_does (hdoes.bind_silent (does_pure _ _)) ?_⟩
    intro log
    rw [Session.perform, ← Log.report_eq_putAll, hwritten]
    rfl
  | step count =>
    refine ⟨_, _, _, .of_does ((does_stepMany count s.simulator).bind_silent (does_pure _ _)) ?_⟩
    intro log
    rw [Session.perform]
    -- the session reports the failing step apart from the others
    generalize s.simulator.stepMany count = taken
    obtain ⟨steps, failure, t⟩ := taken
    dsimp only
    rw [Log.putAll_append, ← Log.report_eq_putAll, ← Log.report_eq_putAll]
    cases failure with
    | none => rfl
    | some e =>
      rw [Option.toList_some, List.flatMap_singleton]
      rfl
  | run config =>
    refine ⟨_, _, _, .of_does ((does_run config s.simulator).bind_silent (does_pure _ _)) ?_⟩
    intro log
    obtain ⟨hsimulator, houtcome⟩ := Checked.runLogged_eq_trace s.simulator config log
    rw [Session.perform, ← s.simulator.report_runLogged, ← hsimulator, ← houtcome]
    dsimp only
    cases (s.simulator.runLogged config log).outcome <;> rfl
  | trace config =>
    refine ⟨_, _, _, .of_does ((does_run config s.simulator).bind_silent (does_pure _ _)) ?_⟩
    intro log
    rw [Session.perform, s.simulator.report_traceLogged]
    dsimp only
    rw [Simulator.traceLogged, Simulator.runWith_eq_trace]
    rfl
  | execute i =>
    refine ⟨_, _, _, .of_does (does_answer (does_execute i s.simulator) _ _) ?_⟩
    intro log
    rw [Session.perform, ← Log.report_eq_putAll]
    dsimp only
    cases effect s.simulator.memory s.simulator.cpu i <;> rfl
  | message entry =>
    refine ⟨s, fun settings => .logged (settings.takes entry), [entry], ?_, ?_, ?_⟩
    · intro log calls
      have htold : Does (Logged.log entry.category entry.level (fun _ => entry.text) >>= fun _ =>
          pure (Reply.logged (log.settings.takes entry)) : LoggedAction Empty Reply) s.simulator
          (.ok (.logged (log.settings.takes entry))) s.simulator [entry] :=
        .log_bind (does_pure _ s.simulator)
      exact htold log s.saved calls
    · intro log
      rfl
    · intro settings settings'
      rfl
  | restoreState =>
    exact ⟨_, _, _, .of_silent (fun _ => rfl) (restore_with_log s s.saved)⟩
  | loadState snapshot =>
    exact ⟨_, _, _, .of_silent (fun _ => rfl) (restore_with_log s snapshot)⟩
  | setGlobalLevel | setLevel | resetLevels | openLogFile | closeLogFile =>
    exact absurd trivial hrequest
  | _ => exact ⟨_, _, _, .of_silent (fun _ => rfl) (fun _ => rfl)⟩

/-! ## Requests in a row -/

/-- Requests in a row offer their entries one after the other. -/
theorem onlyObserves_performAll {requests : List Request}
    (hrequests : ∀ request ∈ requests, ¬ request.ConfiguresLog)
    (hextent : s.simulator.ExtentInMemory) :
    ∃ after replies entries, OnlyObserves (List.map Reply.apartFromLog) (performAll requests)
      (fun s => s.performAll requests) s after replies entries := by
  induction requests generalizing s with
  | nil =>
    refine ⟨s, fun _ => [], [], ?_, fun _ => rfl, fun _ _ => rfl⟩
    intro log calls
    rw [List.map_nil, List.append_nil]
    rfl
  | cons request requests ih =>
    rw [List.forall_mem_cons] at hrequests
    obtain ⟨middle, reply, first, hfirst⟩ := onlyObserves_perform hrequests.1 hextent
    have hmiddle := Session.extentInMemory_perform hextent request
    rw [hfirst.model s.log] at hmiddle
    obtain ⟨after, replies, rest, hrest⟩ := @ih middle hrequests.2 hmiddle
    refine ⟨after, fun settings => reply settings :: replies settings, first ++ rest, ?_, ?_, ?_⟩
    · intro log calls
      -- what comes after finds the log with the first entries and the settings as they were
      have hplace := hrest.inPlace (log.putAll first) (calls ++ first.map (callOf log.settings))
      rw [performAll, Checked.Action.exec_bind_of_ok (hfirst.inPlace log calls),
        Checked.Action.exec_bind_of_ok hplace, Log.settings_putAll, Log.putAll_append,
        List.map_append, ← List.append_assoc]
      rfl
    · intro log
      have hperform : Session.perform { s with log } request = _ := hfirst.model log
      have hperformAll : Session.performAll { middle with log := log.putAll first } requests = _ :=
        hrest.model (log.putAll first)
      rw [Session.performAll, hperform]
      dsimp only
      rw [hperformAll, Log.settings_putAll, Log.putAll_append]
    · intro settings settings'
      rw [List.map_cons, List.map_cons, hfirst.result_eq settings settings',
        hrest.result_eq settings settings']

/-- The log only observes, and it filters exactly. For requests that do not change the log there are
a session after them and entries such that, whatever the log is, the requests lead to this session
and have the same replies, up to what `message` says of the log; the lines are those of the entries
whose level is not off and at most the level that holds for their category, its own or, while that
is off, the global one, in order and each once, in the open file or else on standard error; and only
for these the text is asked for. So with lower levels the lines are among those with higher ones.
The extent of the program lies in memory in every session that began with a new simulator
(`Session.extentInMemory_performAll`). -/
theorem log_only_observes (s : Session) (requests : List Request)
    (hextent : s.simulator.ExtentInMemory)
    (hrequests : ∀ request ∈ requests, ¬ request.ConfiguresLog) :
    let level (settings : LogSettings) (category : Category) : Level :=
      if settings.own category = .off then settings.global else settings.own category
    let takes (settings : LogSettings) (e : LogEntry) : Bool :=
      e.level ≠ .off ∧ e.level.rank ≤ (level settings e.category).rank
    ∃ (after : Session) (replies : LogSettings → List Reply) (entries : List LogEntry),
      (∀ (log : Log) (calls : List LogCall),
        let lines := (entries.filter (takes log.settings)).map LogEntry.line
        (performAll requests).exec ⟨{ s with log }, calls⟩ =
          .ok (.ok (replies log.settings), ⟨{ after with log := log.append lines },
            calls ++ entries.map fun e =>
              ⟨e.category, e.level, if takes log.settings e then some e.text else none⟩⟩) ∧
        Session.performAll { s with log } requests =
          (replies log.settings, { after with log := log.append lines })) ∧
      (∀ settings settings' : LogSettings,
        (replies settings).map Reply.apartFromLog = (replies settings').map Reply.apartFromLog) ∧
      ∀ lower higher : LogSettings,
        (∀ category, (level lower category).rank ≤ (level higher category).rank) →
          ((entries.filter (takes lower)).map LogEntry.line).Sublist
            ((entries.filter (takes higher)).map LogEntry.line) := by
  intro level takes
  have hlevel : level = LogSettings.effective := rfl
  have htakes : takes = LogSettings.takes := by
    funext settings e
    rw [Bool.eq_iff_iff, settings.takes_iff, ← hlevel]
    exact decide_eq_true_iff
  rw [htakes]
  obtain ⟨after, replies, entries, h⟩ := onlyObserves_performAll hrequests hextent
  refine ⟨after, replies, entries, ?_, h.result_eq, ?_⟩
  · intro log calls
    have hplace := h.inPlace log calls
    have hmodel := h.model log
    rw [Log.putAll_eq_append] at hplace hmodel
    exact ⟨hplace, hmodel⟩
  · intro lower higher hlevels
    exact (LogSettings.filter_takes_sublist hlevels entries).map LogEntry.line

/-- `mov al, 5` is loaded and executed. With the level of execution at trace there is one line. With
the global level at trace, which the level of memory overrides, there is the line of the decoder
too. The simulator is the same for every log. -/
theorem log_only_observes_mov :
    let requests : List Request := [.load [0xB0, 0x05] 0, .step 1]
    ({} : Session).simulator.ExtentInMemory ∧
      (∀ request ∈ requests, ¬ request.ConfiguresLog) ∧
      (Session.performAll { log := { settings := { execution := .trace } } }
        requests).2.log.errorLines = #["[Execution] al <- 0x0005"] ∧
      (Session.performAll { log := { settings := { global := .trace, memory := .error } } }
        requests).2.log.errorLines =
          #["[Decoder] 0000: mov al, 5 (2 bytes)", "[Execution] al <- 0x0005"] ∧
      ∀ log log' : Log, (Session.performAll { log } requests).2.simulator =
        (Session.performAll { log := log' } requests).2.simulator := by
  intro requests
  have hrequests : ∀ request ∈ requests, ¬ request.ConfiguresLog := by
    rintro request hmem hconfigures
    simp only [requests, List.mem_cons, List.not_mem_nil, or_false] at hmem
    rcases hmem with rfl | rfl <;> exact hconfigures
  refine ⟨extentInMemory_new, hrequests, rfl, rfl, ?_⟩
  obtain ⟨after, replies, entries, hruns, -, -⟩ :=
    log_only_observes {} requests extentInMemory_new hrequests
  intro log log'
  rw [(hruns log []).2, (hruns log' []).2]

end Logged

end Machine8086
