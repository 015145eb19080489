import Machine8086.Logged.Action
import Machine8086.Proofs.Checked.Action

/-!
# What an action does whatever the log is

An action does something whatever the log is if its result, the simulator after it and the entries
that it offers to the log are the same for every log (`Does`). The entries are then written as far
as the settings allow (`Log.putAll_eq_append`), and of these alone the text has been asked for. An
action that consists of others does what they do, one after the other (`Does.bind`,
`Does.bind_of_error`).
-/

namespace Machine8086

/-- The entry is written under the settings. -/
def LogSettings.takes (s : LogSettings) (e : LogEntry) : Bool := s.allows e.category e.level

/-- The entries of events. -/
abbrev entriesOf (events : List Event) : List LogEntry := events.map Event.entry

theorem entriesOf_append (first second : List Event) :
    entriesOf (first ++ second) = entriesOf first ++ entriesOf second := List.map_append

namespace Log

/-- Writes entries in order as far as the settings allow it. -/
def putAll (log : Log) (entries : List LogEntry) : Log := entries.foldl put log

/-- Adds lines to the open file, or else to standard error. -/
def append (log : Log) (lines : List String) : Log :=
  match log.file with
  | some written => { log with file := some (written ++ lines.toArray) }
  | none => { log with errorLines := log.errorLines ++ lines.toArray }

@[simp] theorem settings_putLine (log : Log) (line : String) :
    (log.putLine line).settings = log.settings := by
  rw [putLine]
  cases log.file <;> rfl

@[simp] theorem settings_put (log : Log) (entry : LogEntry) :
    (log.put entry).settings = log.settings := by
  rw [put]
  split
  · exact settings_putLine ..
  · rfl

@[simp] theorem settings_putAll (log : Log) (entries : List LogEntry) :
    (log.putAll entries).settings = log.settings := by
  induction entries generalizing log with
  | nil => rfl
  | cons entry entries ih => exact (ih _).trans (settings_put log entry)

theorem putAll_append (log : Log) (first second : List LogEntry) :
    log.putAll (first ++ second) = (log.putAll first).putAll second :=
  List.foldl_append

theorem append_nil (log : Log) : log.append [] = log := by
  rw [append]
  split
  case h_1 written hfile => simp [← hfile]
  case h_2 => simp

theorem append_cons (log : Log) (line : String) (lines : List String) :
    log.append (line :: lines) = (log.putLine line).append lines := by
  obtain ⟨settings, errorLines, file⟩ := log
  cases file with
  | some written => simp [append, putLine]
  | none => simp [append, putLine]

/-- Of the entries that are offered, those that the settings allow are written, in order. -/
theorem putAll_eq_append (log : Log) (entries : List LogEntry) :
    log.putAll entries =
      log.append ((entries.filter log.settings.takes).map LogEntry.line) := by
  induction entries generalizing log with
  | nil => exact log.append_nil.symm
  | cons entry entries ih =>
    rw [putAll, List.foldl_cons, ← putAll, ih, settings_put, put]
    by_cases htakes : log.settings.takes entry = true
    · rw [List.filter_cons_of_pos htakes, List.map_cons, append_cons, ← LogSettings.takes,
        if_pos htakes]
    · rw [List.filter_cons_of_neg htakes, ← LogSettings.takes, if_neg htakes]

/-- Events are reported by writing their entries. -/
theorem report_eq_putAll (log : Log) (events : List Event) :
    log.report events = log.putAll (entriesOf events) := by
  rw [putAll, report, List.foldl_map]
  rfl

end Log

namespace Logged

/-- The call of the log with an entry, under given settings. -/
def callOf (settings : LogSettings) (e : LogEntry) : LogCall :=
  ⟨e.category, e.level, if settings.takes e then some e.text else none⟩

namespace LoggedAction

variable {ε δ α β : Type} {action : LoggedAction ε α} {next : α → LoggedAction ε β}
  {s t u : Simulator} {entries more : List LogEntry}

/-- Whatever the log is, the action has this result, leaves this simulator and offers these entries
to the log, which writes what its settings allow. -/
def Does (action : LoggedAction ε α) (s : Simulator) (result : Except ε α) (t : Simulator)
    (entries : List LogEntry) : Prop :=
  ∀ log saved calls, action.exec ⟨⟨s, log, saved⟩, calls⟩ =
    .ok (result, ⟨⟨t, log.putAll entries, saved⟩, calls ++ entries.map (callOf log.settings)⟩)

theorem does_pure (a : α) (s : Simulator) : Does (pure a : LoggedAction ε α) s (.ok a) s [] := by
  intro log saved calls
  rw [List.map_nil, List.append_nil]
  rfl

theorem does_throw (e : ε) (s : Simulator) :
    Does (throw e : LoggedAction ε α) s (.error e) s [] := by
  intro log saved calls
  rw [List.map_nil, List.append_nil]
  rfl

theorem does_ofExcept (result : Except ε α) (s : Simulator) :
    Does (Checked.Action.ofExcept result) s result s [] := by
  cases result with
  | ok a => exact does_pure a s
  | error e => exact does_throw e s

theorem does_log (category : Category) (level : Level) (message : Unit → String) (s : Simulator) :
    Does (log category level message : LoggedAction ε Unit) s (.ok ()) s
      [⟨category, level, message ()⟩] := by
  intro log saved calls
  rw [Logged.log, Checked.Action.exec_bind_of_ok (Checked.Action.exec_get _), List.map_singleton,
    callOf, LogSettings.takes, Log.putAll, List.foldl_cons, List.foldl_nil, Log.put]
  dsimp only
  split
  · rfl
  · rfl

namespace Does

variable {result : Except ε β}

/-- One action after another that succeeds. -/
theorem bind {a : α} (h : action.Does s (.ok a) t entries)
    (hnext : (next a).Does t result u more) :
    (action >>= next).Does s result u (entries ++ more) := by
  intro log saved calls
  rw [Checked.Action.exec_bind_of_ok (h log saved calls), hnext, Log.settings_putAll,
    ← Log.putAll_append, List.append_assoc, ← List.map_append]

/-- One action after another that succeeds; the second tells nothing. -/
theorem bind_silent {a : α} (h : action.Does s (.ok a) t entries)
    (hnext : (next a).Does t result u []) : (action >>= next).Does s result u entries := by
  rw [← List.append_nil entries]
  exact h.bind hnext

/-- Nothing comes after an action that fails. -/
theorem bind_of_error {e : ε} (h : action.Does s (.error e) t entries) :
    (action >>= next).Does s (.error e) t entries := by
  intro log saved calls
  exact Checked.Action.exec_bind_of_error (h log saved calls)

theorem mapError {result : Except ε α} (f : ε → δ) (h : action.Does s result t entries) :
    Does (action.mapError f) s (result.mapError f) t entries := by
  intro log saved calls
  exact Checked.Action.exec_mapError f (h log saved calls)

theorem attempt {result : Except ε α} (h : action.Does s result t entries) :
    Does (action.attempt : LoggedAction δ (Except ε α)) s (.ok result) t entries := by
  intro log saved calls
  exact Checked.Action.exec_attempt (h log saved calls)

/-- What follows on the simulator works on the one there is. -/
theorem getSimulator_bind {next : Simulator → LoggedAction ε β}
    (h : (next s).Does s result u entries) : (getSimulator >>= next).Does s result u entries := by
  intro log saved calls
  rw [← h log saved calls]
  rfl

theorem setSimulator_bind {next : Unit → LoggedAction ε β}
    (h : (next ()).Does t result u entries) :
    (setSimulator t >>= next).Does s result u entries := by
  intro log saved calls
  rw [← h log saved calls]
  rfl

/-- A call of the log offers its entry first. -/
theorem log_bind {category : Category} {level : Level} {message : Unit → String}
    {next : Unit → LoggedAction ε β} (h : (next ()).Does s result u entries) :
    (log category level message >>= next).Does s result u
      (⟨category, level, message ()⟩ :: entries) :=
  (does_log category level message s).bind h

end Does

end LoggedAction

end Logged

end Machine8086
