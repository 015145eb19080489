import Machine8086.CommandLine.Arguments

/-!
# The option for tracing

Reading the arguments of a command goes through them once and stores what they say in the options.
No other option looks at whether the run is to be traced or changes it (`Options.KeepsTrace`), and
what has been asked for once is not taken back. So the arguments after the option for tracing are
read as they would be without it (`Options.read_withTrace`), and a command line with this option
asks for the same run, traced (`ofArguments_sim_trace`).
-/

namespace Machine8086.CommandLine

namespace Options

variable {o o' : Options}

/-- Options with tracing switched on or off. -/
def withTrace (o : Options) (trace : Bool) : Options := { o with trace := trace }

/-- Storing something in the options does not look at tracing and leaves it alone. -/
def KeepsTrace (f : Options → Except UsageError Options) : Prop :=
  ∀ o trace, f (o.withTrace trace) = (f o).map (·.withTrace trace)

theorem KeepsTrace.trace_eq {f : Options → Except UsageError Options} (hf : KeepsTrace f)
    (h : f o = .ok o') : o'.trace = o.trace := by
  have hsame := hf o o.trace
  rw [show o.withTrace o.trace = o from rfl, h, Except.map, Except.ok.injEq] at hsame
  rw [hsame]
  rfl

theorem KeepsTrace.withTrace_eq {f : Options → Except UsageError Options} (hf : KeepsTrace f)
    (h : f o = .ok o') (trace : Bool) : f (o.withTrace trace) = .ok (o'.withTrace trace) := by
  rw [hf o trace, h]
  rfl

/-- Storing something and going on with what is left. -/
theorem KeepsTrace.store {f : Options → Except UsageError Options} (hf : KeepsTrace f) {α : Type}
    {after left : α} (h : (do return (← f o, after)) = Except.ok (o', left)) (trace : Bool) :
    o'.trace = o.trace ∧
      (do return (← f (o.withTrace trace), after)) = Except.ok (o'.withTrace trace, left) := by
  cases hstored : f o with
  | error e =>
    rw [hstored] at h
    cases h
  | ok stored =>
    rw [hstored] at h
    cases h
    rw [hf.withTrace_eq hstored]
    exact ⟨hf.trace_eq hstored, rfl⟩

end Options

end Machine8086.CommandLine
