import Machine8086.Checked.Action
import Machine8086.Proofs.Word

/-!
# Carrying out actions

What the parts of an action do to the state. An action is carried out from its first part on: if
that succeeds, the rest goes on from the state after it, and if that fails, the action fails with
it.
-/

namespace Machine8086.Checked

theorem fit_eq_ok {bits value : Nat} (h : value < 2 ^ bits) : fit bits value = .ok value := if_pos h

theorem sum_eq_ok {bits first second : Nat} (h : first + second < 2 ^ bits) :
    sum bits first second = .ok (first + second) := fit_eq_ok h

theorem sum_eq_error {bits first second : Nat} (h : 2 ^ bits ≤ first + second) :
    sum bits first second = .error .overflow := if_neg (Nat.not_lt.2 h)

theorem difference_eq_ok {first second : Nat} (h : second ≤ first) :
    difference first second = .ok (first - second) := if_pos h

namespace Action

variable {σ ε ε' α β : Type} {action : Action σ ε α} {next : α → Action σ ε β} {s s' : σ}

@[simp] theorem exec_get (s : σ) : (get : Action σ ε σ).exec s = .ok (.ok s, s) := rfl

theorem exec_lift_ok (a : α) (s : σ) :
    (liftM (Except.ok a : Except Fault α) : Action σ ε α).exec s = .ok (.ok a, s) := rfl

/-- What has no fault goes on with its value. -/
@[simp] theorem lift_ok_bind (a : α) (next : α → Action σ ε β) :
    (liftM (Except.ok a : Except Fault α) : Action σ ε α) >>= next = next a := rfl

theorem exec_bind_of_ok {a : α} (h : action.exec s = .ok (.ok a, s')) :
    (action >>= next).exec s = (next a).exec s' := by
  simp only [exec] at h ⊢
  simp only [ExceptT.run_bind, StateT.run_bind, h]
  rfl

theorem exec_bind_of_error {e : ε} (h : action.exec s = .ok (.error e, s')) :
    (action >>= next).exec s = .ok (.error e, s') := by
  simp only [exec] at h ⊢
  simp only [ExceptT.run_bind, StateT.run_bind, h]
  rfl

theorem exec_bind_of_fault {why : Fault} (h : action.exec s = .error why) :
    (action >>= next).exec s = .error why := by
  simp only [exec] at h ⊢
  simp only [ExceptT.run_bind, StateT.run_bind, h]
  rfl

theorem exec_mapError {result : Except ε α} (f : ε → ε') (h : action.exec s = .ok (result, s')) :
    (action.mapError f).exec s = .ok (result.mapError f, s') := by
  simp only [exec] at h
  simp only [exec, mapError, ExceptT.run_adapt, StateT.run_map, h]
  rfl

theorem exec_withoutResult {result : Except ε α} (h : action.exec s = .ok (result, s')) :
    action.withoutResult.exec s = .ok (result.map fun _ => (), s') := by
  cases result with
  | ok a => exact exec_bind_of_ok h
  | error e => exact exec_bind_of_error h

theorem exec_attempt {result : Except ε α} (h : action.exec s = .ok (result, s')) :
    (action.attempt : Action σ ε' (Except ε α)).exec s = .ok (.ok result, s') := by
  simp only [exec] at h
  simp only [exec, attempt, ExceptT.run_lift, StateT.run_map, h]
  rfl

end Action

end Machine8086.Checked
