import Machine8086.Session
import Machine8086.Proofs.Json
import Machine8086.Proofs.Record

/-!
# Snapshots

Which JSON values are snapshots, and of which processor state. A value holds a state as an object or
as an array, with the flags as either (`Snapshot.HoldsState`), and a snapshot is accepted exactly if
it holds one, which is then what is read (`Snapshot.read_eq_ok_iff`). The snapshot of a state holds
that state (`Snapshot.holdsState_ofState`), and hence any session takes it over
(`snapshots_restored_exactly`).
-/

namespace Machine8086

namespace Snapshot

/-! ## Flags and processor states -/

theorem word_eq_ok_iff (value : Json) (w : UInt16) :
    word value = .ok w ↔ value = .integer w.toNat := by
  have hlt := w.toNat_lt
  cases value with
  | integer n =>
    rw [word, Json.integer.injEq]
    split
    case isTrue hword =>
      rw [Except.ok.injEq, ← UInt16.toNat_inj,
        UInt16.toNat_ofNat_of_lt' ((Int.toNat_lt hword.1).2 hword.2)]
      omega
    case isFalse hword =>
      simp only [reduceCtorEq, false_iff]
      omega
  | _ => simp [word]

theorem boolean_eq_ok_iff (value : Json) (b : Bool) :
    boolean value = .ok b ↔ value = .bool b := by
  cases value with
  | bool value => simp [boolean]
  | _ => simp [boolean]

/-- The value holds these flags: an object with the two truth values under their names, or an array
of just the two. -/
inductive HoldsFlags : Json → Flags → Prop
  | object {members : List (String × Json)} {flags : Flags}
      (hzero : members.lookup "zero" = some (.bool flags.zero))
      (hsign : members.lookup "sign" = some (.bool flags.sign)) :
      HoldsFlags (.object members) flags
  | array (flags : Flags) : HoldsFlags (.array [.bool flags.zero, .bool flags.sign]) flags

/-- The value holds this processor state: an object with the nine words and the flags under their
names, or an array of just these ten in order. -/
inductive HoldsCpu : Json → Cpu → Prop
  | object {members : List (String × Json)} {cpu : Cpu} {flags : Json}
      (hwords : ∀ word ∈ cpu.words, members.lookup word.1 = some (.integer word.2.toNat))
      (hflags : members.lookup "flags" = some flags) (h : HoldsFlags flags cpu.flags) :
      HoldsCpu (.object members) cpu
  | array {cpu : Cpu} {flags : Json} (h : HoldsFlags flags cpu.flags) :
      HoldsCpu (.array (cpu.words.map (fun word => .integer word.2.toNat) ++ [flags])) cpu

theorem HoldsCpu.length_eq {values : List Json} {cpu : Cpu} (h : HoldsCpu (.array values) cpu) :
    values.length = 10 := by
  cases h with
  | array h => simp [Cpu.words]

/-- The value is a snapshot of this processor state. -/
structure HoldsState (snapshot : Json) (cpu : Cpu) : Prop where
  version : snapshot.member? "version" = some (.integer 1)
  system : snapshot.member? "system" = some (.text "sim86")
  registers : ∃ registers, snapshot.member? "registers" = some registers ∧ HoldsCpu registers cpu

/-- The parts of the flags. -/
def flagParts : List (Part Flags) :=
  [⟨"zero", Bool, boolean, Flags.zero, fun value flags => { flags with zero := value }⟩,
    ⟨"sign", Bool, boolean, Flags.sign, fun value flags => { flags with sign := value }⟩]

/-- A word as a part of the processor state. -/
def wordPart (name : String) (get : Cpu → UInt16) (set : UInt16 → Cpu → Cpu) : Part Cpu :=
  ⟨name, UInt16, word, get, set⟩

/-- The parts of the processor state. -/
def cpuParts : List (Part Cpu) :=
  [wordPart "ax" Cpu.ax fun value cpu => { cpu with ax := value },
    wordPart "bx" Cpu.bx fun value cpu => { cpu with bx := value },
    wordPart "cx" Cpu.cx fun value cpu => { cpu with cx := value },
    wordPart "dx" Cpu.dx fun value cpu => { cpu with dx := value },
    wordPart "sp" Cpu.sp fun value cpu => { cpu with sp := value },
    wordPart "bp" Cpu.bp fun value cpu => { cpu with bp := value },
    wordPart "si" Cpu.si fun value cpu => { cpu with si := value },
    wordPart "di" Cpu.di fun value cpu => { cpu with di := value },
    wordPart "ip" Cpu.ip fun value cpu => { cpu with ip := value },
    ⟨"flags", Flags, flags, Cpu.flags, fun value cpu => { cpu with flags := value }⟩]

theorem divides_flagParts : Divides flagParts where
  apart := by simp [flagParts, Part.apart_iff]
  get_set := by simp [flagParts]
  ext := by
    rintro ⟨zero, sign⟩ ⟨zero', sign'⟩ h
    simpa [flagParts] using h

theorem divides_cpuParts : Divides cpuParts where
  apart := by simp [cpuParts, wordPart, Part.apart_iff]
  get_set := by simp [cpuParts, wordPart]
  ext := by
    intro cpu cpu' h
    cases cpu with | mk
    cases cpu' with | mk
    simpa [cpuParts, wordPart] using h

theorem holds_wordPart_iff (name : String) (get : Cpu → UInt16) (set : UInt16 → Cpu → Cpu)
    (value : Json) (cpu : Cpu) :
    (wordPart name get set).Holds value cpu ↔ value = .integer (get cpu).toNat :=
  word_eq_ok_iff value (get cpu)

/-- Flags are read exactly from what holds them. -/
theorem flags_eq_ok_iff {value : Json} (hsorted : value.Sorted) (f : Flags) :
    flags value = .ok f ↔ HoldsFlags value f := by
  have hmembers : flagMembers = flagParts.map Part.member := rfl
  rw [flags, hmembers]
  cases value with
  | object members =>
    rw [record_object_eq_ok_iff divides_flagParts _ _ _ hsorted.nodup_names]
    constructor
    · intro h
      simp only [flagParts, List.forall_mem_cons] at h
      obtain ⟨⟨zero, hzero, hz⟩, ⟨sign, hsign, hs⟩, -⟩ := h
      obtain rfl := (boolean_eq_ok_iff _ _).1 hz
      obtain rfl := (boolean_eq_ok_iff _ _).1 hs
      exact .object hzero hsign
    · intro h
      cases h with
      | object hzero hsign =>
        simp only [flagParts, List.forall_mem_cons]
        exact ⟨⟨_, hzero, rfl⟩, ⟨_, hsign, rfl⟩, nofun⟩
  | array values =>
    rw [record_array_eq_ok_iff divides_flagParts]
    constructor
    · intro h
      obtain ⟨zero, others, hzero, hothers, rfl⟩ := List.forall₂_cons_left_iff.1 h
      obtain ⟨sign, rest, hsign, hrest, rfl⟩ := List.forall₂_cons_left_iff.1 hothers
      obtain rfl := List.forall₂_nil_left_iff.1 hrest
      obtain rfl := (boolean_eq_ok_iff _ _).1 hzero
      obtain rfl := (boolean_eq_ok_iff _ _).1 hsign
      exact .array f
    · intro h
      cases h with
      | array => exact .cons rfl (.cons rfl .nil)
  | _ =>
    constructor
    · intro h
      cases h
    · intro h
      cases h

/-- The ten values under the names of the processor state. -/
theorem forall_cpuParts_iff (members : List (String × Json)) (c : Cpu) :
    (∀ p ∈ cpuParts, ∃ value, members.lookup p.name = some value ∧ p.Holds value c) ↔
      (∀ word ∈ c.words, members.lookup word.1 = some (.integer word.2.toNat)) ∧
        ∃ value, members.lookup "flags" = some value ∧ flags value = .ok c.flags := by
  have hword : ∀ name get set, (∃ value, members.lookup (wordPart name get set).name = some value ∧
      (wordPart name get set).Holds value c) ↔
        members.lookup name = some (.integer (get c).toNat) := by
    intro name get set
    simp only [holds_wordPart_iff, exists_eq_right]
    rfl
  simp only [cpuParts, Cpu.words, List.forall_mem_cons, hword, and_assoc]
  simp [Part.Holds]

/-- The ten values of the processor state in order. -/
theorem forall₂_cpuParts_iff (values : List Json) (c : Cpu) :
    List.Forall₂ (fun p value => p.Holds value c) cpuParts values ↔
      ∃ value, values = c.words.map (fun word => .integer word.2.toNat) ++ [value] ∧
        flags value = .ok c.flags := by
  simp only [cpuParts, List.forall₂_cons_left_iff, List.forall₂_nil_left_iff, holds_wordPart_iff,
    existsAndEq, true_and, and_true]
  exact exists_congr fun value => and_comm

/-- A processor state is read exactly from what holds it. -/
theorem cpu_eq_ok_iff {value : Json} (hsorted : value.Sorted) (c : Cpu) :
    cpu value = .ok c ↔ HoldsCpu value c := by
  have hmembers : cpuMembers = cpuParts.map Part.member := rfl
  rw [cpu, hmembers]
  cases value with
  | object members =>
    rw [record_object_eq_ok_iff divides_cpuParts _ _ _ hsorted.nodup_names, forall_cpuParts_iff]
    constructor
    · rintro ⟨hwords, value, hflags, h⟩
      exact .object hwords hflags ((flags_eq_ok_iff (hsorted.of_lookup hflags) _).1 h)
    · intro h
      cases h with
      | object hwords hflags h =>
        exact ⟨hwords, _, hflags, (flags_eq_ok_iff (hsorted.of_lookup hflags) _).2 h⟩
  | array values =>
    rw [record_array_eq_ok_iff divides_cpuParts, forall₂_cpuParts_iff]
    cases hsorted with | array helements
    constructor
    · rintro ⟨value, rfl, h⟩
      exact .array ((flags_eq_ok_iff (helements value (by simp)) _).1 h)
    · intro h
      cases h with
      | array h => exact ⟨_, rfl, (flags_eq_ok_iff (helements _ (by simp)) _).2 h⟩
  | _ =>
    constructor
    · intro h
      cases h
    · intro h
      cases h

/-! ## Snapshots -/

theorem natural?_eq_some_iff (found : Option Json) (n : Nat) :
    found.bind Json.natural? = some n ↔ found = some (.integer n) := by
  cases found with
  | none => simp
  | some value =>
    cases value with
    | integer i =>
      simp only [Option.bind_some, Json.natural?, Option.some.injEq, Json.integer.injEq]
      split
      · simp only [Option.some.injEq]
        omega
      · simp only [reduceCtorEq, false_iff]
        omega
    | _ => simp [Json.natural?]

theorem text?_eq_some_iff (found : Option Json) (s : String) :
    found.bind Json.text? = some s ↔ found = some (.text s) := by
  cases found with
  | none => simp
  | some value => cases value <;> simp [Json.text?]

/-- A snapshot is read exactly if it holds a processor state. -/
theorem read_eq_ok_iff {snapshot : Json} (hsorted : snapshot.Sorted) (c : Cpu) :
    read snapshot = .ok c ↔ HoldsState snapshot c := by
  have hversion := natural?_eq_some_iff (snapshot.member? "version") version
  have hsystem := text?_eq_some_iff (snapshot.member? "system") system
  constructor
  · intro h
    rw [read] at h
    split at h
    case h_1 => cases h
    case h_2 found hfound =>
      dsimp only at h
      split at h
      case isTrue => cases h
      case isFalse hone =>
        split at h
        case isTrue => cases h
        case isFalse hname =>
          split at h
          case h_1 => cases h
          case h_2 registers hregisters =>
            obtain rfl := not_ne_iff.1 hone
            exact ⟨hversion.1 hfound, hsystem.1 (not_ne_iff.1 hname), registers, hregisters,
              (cpu_eq_ok_iff (hsorted.of_member? hregisters) c).1 h⟩
  · rintro ⟨hone, hname, registers, hregisters, hcpu⟩
    rw [read, hversion.2 hone, hsystem.2 hname, hregisters]
    simp only [ne_eq, not_true_eq_false, if_false]
    exact (cpu_eq_ok_iff (hsorted.of_member? hregisters) c).2 hcpu

/-- The snapshot of a state is in order and holds the state. -/
theorem holdsState_ofState (c : Cpu) : HoldsState (ofState c) c := by
  obtain ⟨members, hmembers, hlookup⟩ := Json.ofMembers_eq_object
    [("zero", .bool c.flags.zero), ("sign", .bool c.flags.sign)]
  have hflags : HoldsFlags (ofFlags c.flags) c.flags := by
    rw [ofFlags, hmembers]
    exact .object (hlookup _) (hlookup _)
  obtain ⟨members, hmembers, hlookup⟩ := Json.ofMembers_eq_object
    (c.words.map (fun word => (word.1, .integer word.2.toNat)) ++
      [("flags", ofFlags c.flags)])
  have hcpu : HoldsCpu (ofCpu c) c := by
    rw [ofCpu, hmembers]
    refine .object ?_ (hlookup _) hflags
    simp only [Cpu.words, List.forall_mem_cons, hlookup]
    exact ⟨rfl, rfl, rfl, rfl, rfl, rfl, rfl, rfl, rfl, nofun⟩
  obtain ⟨members, hmembers, hlookup⟩ := Json.ofMembers_eq_object
    [("version", .integer version), ("system", .text system), ("registers", ofCpu c)]
  rw [ofState, hmembers]
  exact ⟨hlookup _, hlookup _, _, hlookup _, hcpu⟩

theorem sorted_ofState (c : Cpu) : (ofState c).Sorted := by
  have hflags : (ofFlags c.flags).Sorted := by
    apply Json.sorted_ofMembers
    simp only [List.forall_mem_cons]
    exact ⟨.bool _, .bool _, nofun⟩
  have hcpu : (ofCpu c).Sorted := by
    apply Json.sorted_ofMembers
    intro member hmember
    rcases List.mem_append.1 hmember with hword | hlast
    · obtain ⟨word, -, rfl⟩ := List.mem_map.1 hword
      exact .integer _
    · rw [List.mem_singleton.1 hlast]
      exact hflags
  apply Json.sorted_ofMembers
  simp only [List.forall_mem_cons]
  exact ⟨.integer _, .text _, hcpu, nofun⟩

end Snapshot

/-- Loading a snapshot succeeds exactly if it is read, and then replaces the processor state. -/
theorem Session.perform_loadState_iff (s : Session) (snapshot : Json) (reply : Reply)
    (s' : Session) :
    s.perform (.loadState snapshot) = (reply, s') ↔
      match Snapshot.read snapshot with
      | .ok cpu => reply = .done ∧ s' = s.withCpu cpu
      | .error e => reply = .failed (.snapshot e) ∧ s' = s := by
  rw [perform, perform.restore, Simulator.loadState]
  cases Snapshot.read snapshot with
  | ok cpu => simp [Except.map, withCpu, eq_comm]
  | error e => simp [Except.map, eq_comm]

/-- The snapshot that a session takes is loaded by every other session, and makes its processor
state that of the first; all else stays. And of all JSON values, those are loaded that are snapshots
of a processor state, which is then the new one; for any other value the load fails and the session
stays as it was. -/
theorem snapshots_restored_exactly :
    (∀ s : Session, ∃ snapshot : Json,
        s.perform .saveState = (.saved snapshot, { s with saved := snapshot }) ∧
        snapshot.Sorted ∧
        ∀ s' : Session, s'.perform (.loadState snapshot) = (.done, s'.withCpu s.simulator.cpu)) ∧
      ∀ (s : Session) (snapshot : Json), snapshot.Sorted →
        (∀ s', s.perform (.loadState snapshot) = (.done, s') ↔
          ∃ cpu, Snapshot.HoldsState snapshot cpu ∧ s' = s.withCpu cpu) ∧
        ((¬ ∃ cpu, Snapshot.HoldsState snapshot cpu) →
          ∃ e, s.perform (.loadState snapshot) = (.failed (.snapshot e), s)) := by
  constructor
  · intro s
    have hsorted := Snapshot.sorted_ofState s.simulator.cpu
    have hread := (Snapshot.read_eq_ok_iff hsorted _).2 (Snapshot.holdsState_ofState _)
    refine ⟨_, rfl, hsorted, fun s' => ?_⟩
    rw [s'.perform_loadState_iff, hread]
    exact ⟨rfl, rfl⟩
  · intro s snapshot hsorted
    have hread := Snapshot.read_eq_ok_iff hsorted
    constructor
    · intro s'
      simp only [← hread, s.perform_loadState_iff]
      cases Snapshot.read snapshot with
      | ok cpu => simp
      | error e => simp
    · intro hnone
      cases hsnapshot : Snapshot.read snapshot with
      | ok cpu => exact absurd ⟨cpu, (hread cpu).1 hsnapshot⟩ hnone
      | error e =>
        refine ⟨e, (s.perform_loadState_iff ..).2 ?_⟩
        rw [hsnapshot]
        exact ⟨rfl, rfl⟩

/-- A snapshot whose registers and flags are arrays is loaded. If an eleventh value follows them, it
is not, and nothing changes. -/
theorem snapshots_restored_exactly_array :
    let words := [1, 2, 3, 4, 5, 6, 7, 8, 65535].map Json.integer
    let flags := Json.array [.bool true, .bool false]
    let snapshot := fun values => Json.object
      [("registers", .array values), ("system", .text "sim86"), ("version", .integer 1)]
    let s : Session := {}
    (snapshot (words ++ [flags])).Sorted ∧
      s.perform (.loadState (snapshot (words ++ [flags]))) =
        (.done, s.withCpu ⟨1, 2, 3, 4, 5, 6, 7, 8, 65535, ⟨true, false⟩⟩) ∧
      (snapshot (words ++ [flags, .null])).Sorted ∧
      ∃ e, s.perform (.loadState (snapshot (words ++ [flags, .null]))) =
        (.failed (.snapshot e), s) := by
  intro words flags snapshot s
  have hsorted : ∀ values : List Json, (∀ value ∈ values, value.Sorted) →
      (snapshot values).Sorted := by
    intro values hvalues
    have hnames : ["registers", "system", "version"].Pairwise (· < ·) := by decide
    refine .object hnames ?_
    simp only [List.forall_mem_cons]
    exact ⟨.array hvalues, .text _, .integer _, nofun⟩
  have hflags : flags.Sorted := by
    refine .array ?_
    simp only [List.forall_mem_cons]
    exact ⟨.bool _, .bool _, nofun⟩
  have hwords : ∀ value ∈ words, value.Sorted := by
    intro value hvalue
    obtain ⟨n, -, rfl⟩ := List.mem_map.1 hvalue
    exact .integer n
  have hten : (snapshot (words ++ [flags])).Sorted := by
    apply hsorted
    intro value hvalue
    rcases List.mem_append.1 hvalue with hvalue | hvalue
    · exact hwords value hvalue
    · rw [List.mem_singleton.1 hvalue]
      exact hflags
  have heleven : (snapshot (words ++ [flags, .null])).Sorted := by
    apply hsorted
    intro value hvalue
    simp only [List.mem_append, List.mem_cons, List.not_mem_nil, or_false] at hvalue
    rcases hvalue with hvalue | rfl | rfl
    · exact hwords value hvalue
    · exact hflags
    · exact .null
  refine ⟨hten, ?_, heleven, ?_⟩
  · refine ((snapshots_restored_exactly.2 s _ hten).1 _).2 ⟨_, ⟨rfl, rfl, _, rfl, ?_⟩, rfl⟩
    have hholds : Snapshot.HoldsFlags flags ⟨true, false⟩ := .array ⟨true, false⟩
    exact @Snapshot.HoldsCpu.array ⟨1, 2, 3, 4, 5, 6, 7, 8, 65535, ⟨true, false⟩⟩ flags hholds
  · refine (snapshots_restored_exactly.2 s _ heleven).2 ?_
    rintro ⟨cpu, -, -, registers, hregisters, hcpu⟩
    obtain rfl := Option.some.inj hregisters
    exact absurd hcpu.length_eq (by decide)

end Machine8086
