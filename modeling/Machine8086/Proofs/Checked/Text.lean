import Machine8086.Checked.Text
import Machine8086.Proofs.Checked.Action
import Machine8086.Proofs.Estimation

/-!
# Texts and estimates have no faults

The cases that are excluded when an instruction is written or estimated do not turn up, since an
address that is direct is told apart before and every register has a name. What is left is the text
(`text_eq`) and the estimate (`estimate_eq`).
-/

namespace Machine8086.Checked

theorem registerName_eq (r : Register) : registerName r = .ok r.name := by
  cases r <;> rfl

theorem baseExpression_eq (base : AddressBase) (displacement : Int16) :
    baseExpression (.based base displacement) = .ok base.text := by
  cases base <;> rfl

theorem memoryText_eq (o : MemoryOperand) : memoryText o = .ok o.text := by
  cases o with
  | direct address => rfl
  | based base displacement =>
    rw [memoryText, baseExpression_eq]
    rfl

theorem destinationText_eq (destination : Operand) :
    destinationText destination = .ok destination.text := by
  cases destination with
  | register r => exact registerName_eq r
  | memory o => exact memoryText_eq o

theorem sourceText_eq (source : Source) : sourceText source = .ok source.text := by
  cases source with
  | register r => exact registerName_eq r
  | memory o => exact memoryText_eq o
  | immediate imm => rfl

/-- A target is a sum of eight bits and two. -/
theorem targetText_eq (offset : Int8) : targetText offset = .ok (jumpTargetText offset) := by
  have hlow : -128 ≤ offset.toInt := offset.le_toInt
  have hhigh : offset.toInt < 128 := offset.toInt_lt
  have hsum : signedSum 16 offset.toInt 2 = .ok (offset.toInt + 2) := by
    have hbound : Int.ofNat (Nat.pow 2 (16 - 1)) = 32768 := rfl
    apply if_pos
    rw [hbound]
    omega
  rw [targetText, hsum, jumpTargetText]
  dsimp only [bind, Except.bind]
  split <;> rfl

theorem operandsText_eq (operands : Operands) : operandsText operands = .ok operands.text := by
  match operands with
  | .relative offset => exact targetText_eq offset
  | .pair (.register r) source =>
    rw [operandsText, destinationText_eq, sourceText_eq]
    · rfl
    · nofun
  | .pair (.memory o) (.immediate imm) =>
    rw [operandsText, memoryText_eq]
    rfl
  | .pair (.memory o) (.register r) =>
    rw [operandsText, destinationText_eq, sourceText_eq]
    · rfl
    · nofun
  | .pair (.memory o) (.memory o') =>
    rw [operandsText, destinationText_eq, sourceText_eq]
    · rfl
    · nofun

/-- Every instruction has a text, also one that no bytes stand for. -/
theorem text_eq (i : Instruction) : text i = .ok i.text := by
  rw [text, operandsText_eq]
  rfl

/-- An estimate is far below the range of its type. -/
theorem estimate_eq (i : Instruction) : estimate i = .ok i.clocks? := by
  rw [estimate]
  cases hclocks : i.clocks? with
  | none => rfl
  | some clocks =>
    have hbounds := Instruction.clocks?_bounds hclocks
    dsimp only
    rw [fit_eq_ok (by omega)]
    rfl

end Machine8086.Checked
