import Machine8086.Checked.Simulator

/-!
# Calls

The operations that a host can call on a simulator, in any order and with any arguments. Of the
result of a call only the failure is kept.
-/

namespace Machine8086.Checked

/-- An operation with its arguments. -/
inductive Call where
  | load (program : List UInt8) (start : UInt16)
  | step
  | run (config : RunConfig)
  | decodeOne (address : UInt16)
  | disassemble
  | saveState
  | loadState (snapshot : Json)
  | resetCpu
  | setRegister (r : Register) (value : UInt16)
  | setIp (value : UInt16)
  | setFlags (flags : Flags)
  | writeByte (address : UInt16) (value : UInt8)
  | writeWord (address value : UInt16)

namespace Call

/-- Carries out an operation on the simulator. -/
def perform : Call → Action Simulator Failure Unit
  | load program start => ((Checked.load program start).mapError .load).withoutResult
  | step => (Checked.step.mapError .ofStep).withoutResult
  | run config => (Checked.run config).withoutResult
  | decodeOne address => ((Checked.decodeOne address).mapError .decode).withoutResult
  | disassemble => (Checked.disassemble.mapError fun e => .write (.listing e)).withoutResult
  | saveState => Checked.saveState.withoutResult
  | loadState snapshot => (Checked.loadState snapshot).mapError .snapshot
  | resetCpu => Checked.resetCpu
  | setRegister r value => Checked.setRegister r value
  | setIp value => modify fun s => { s with cpu := { s.cpu with ip := value } }
  | setFlags flags => modify fun s => { s with cpu := { s.cpu with flags } }
  | writeByte address value => modify fun s => { s with memory := s.memory.write address value }
  | writeWord address value => modify fun s => { s with memory := s.memory.writeWord address value }

/-- Carries out operations in order. A failure does not keep the next operation from being called,
a fault does. -/
def performAll : List Call → Simulator → Except Fault (List (Except Failure Unit) × Simulator)
  | [], s => .ok ([], s)
  | call :: calls, s => do
    let (result, s) ← call.perform.exec s
    let (results, s) ← performAll calls s
    return (result :: results, s)

/-- The request that asks a session for the operation. -/
def request : Call → Request
  | load program start => .load program start
  | step => .step 1
  | run config => .run config
  | decodeOne address => .decode address addressSpace
  | disassemble => .disassemble
  | saveState => .saveState
  | loadState snapshot => .loadState snapshot
  | resetCpu => .resetCpu
  | setRegister r value => .setRegister r value
  | setIp value => .setIp value
  | setFlags flags => .setFlags flags
  | writeByte address value => .writeByte address value
  | writeWord address value => .writeWord address value

end Call

end Machine8086.Checked
