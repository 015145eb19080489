import Machine8086.Proofs.Checked.Decode
import Machine8086.Session

/-!
# Failed decoding

What becomes of the cursor, and of whoever asks for an instruction, if there is none. The cursor
moves with every instruction that is decoded (`next_ne_of_decode`), and with no error; neither a
request to decode nor a step changes processor or memory then
(`Session.perform_decode_of_error`, `Session.perform_step_of_decode_error`). Together with the
conditions for each error this is `decode_errors_classified`.
-/

namespace Machine8086

/-! ## The cursor -/

theorem Decoded.next_ne_address {d : Decoded} (hpos : 0 < d.size) (hspace : d.size < addressSpace) :
    d.next ≠ d.address := by
  intro h
  have hnat := congrArg UInt16.toNat h
  rw [next, UInt16.toNat_add, UInt16.toNat_ofNat'] at hnat
  have haddress := d.address.toNat_lt
  rw [addressSpace] at hspace
  omega

/-- Decoding an instruction moves the cursor. -/
theorem next_ne_of_decode {m : Memory} {cursor : UInt16} {stop : Nat} {d : Decoded}
    (h : decode m cursor stop = .ok d) : d.next ≠ cursor := by
  obtain ⟨rfl, hpos⟩ := decode_eq_ok h
  exact d.next_ne_address hpos (Nat.lt_of_le_of_lt (decode_size_bounds h).2 (by decide))

/-! ## Requests and steps -/

theorem Session.perform_decode_of_error {s : Session} {cursor : UInt16} {stop : Nat}
    {e : DecodeError} (h : decode s.simulator.memory cursor stop = .error e) :
    (s.perform (.decode cursor stop)).1 = .failed (.decode e) ∧
      (s.perform (.decode cursor stop)).2.simulator = s.simulator := by
  rw [perform, h]
  exact ⟨rfl, rfl⟩

/-- A step that cannot be decoded is not taken, nor is any after it. -/
theorem Simulator.stepMany_of_decode_error {s : Simulator} {e : DecodeError}
    (h : decode s.memory s.cpu.ip addressSpace = .error e) (count : Nat) :
    s.stepMany (count + 1) = ([], some (.decode e), s) := by
  have hpreview : s.preview addressSpace = .error (.decode e) := by
    rw [preview, h]
  rw [stepMany, hpreview]

theorem Session.perform_step_of_decode_error {s : Session} {e : DecodeError}
    (h : decode s.simulator.memory s.simulator.cpu.ip addressSpace = .error e) (count : Nat) :
    (s.perform (.step (count + 1))).1 = .stepped [] (some (.decode e)) ∧
      (s.perform (.step (count + 1))).2.simulator = s.simulator := by
  rw [perform, Simulator.stepMany_of_decode_error h count]
  exact ⟨rfl, rfl⟩

/-! ## The classification -/

/-- The errors of decoding. At or behind the end it is the end of the stream. Otherwise a first byte
without a form is unknown, and so is an operation that is not decoded, in the first byte even if
nothing follows it, in the second even if the fields after it are missing. What is not unknown is
truncated exactly if the length that the first two bytes give exceeds the bytes left, or the
addressing byte is missing; and what is decoded has that length. The decoder in place ends with the
same error and its cursor where it was, or with the instruction and the cursor behind it, somewhere
else. After an error a request to decode, and a step at that place, change neither processor nor
memory. -/
theorem decode_errors_classified (m : Memory) (cursor : UInt16) (stop : Nat) :
    let final := min stop addressSpace
    let opcode := m.read cursor
    let second := m.read (cursor + 1)
    (decode m cursor stop = .error .endOfStream ↔ final ≤ cursor.toNat) ∧
      (∀ byte address, decode m cursor stop = .error (.unknownOpcode byte address) ↔
        cursor.toNat < final ∧ Unsupported opcode (m.second? cursor final) ∧
          byte = opcode ∧ address = cursor) ∧
      (∀ address, (∃ needed, decode m cursor stop = .error (.missingBytes address needed)) ↔
        cursor.toNat < final ∧ ¬ Unsupported opcode (m.second? cursor final) ∧
          address = cursor ∧ ∃ form : Form, form.accepts opcode = true ∧
            form.Truncated opcode second (final - cursor.toNat)) ∧
      (∀ d, decode m cursor stop = .ok d →
        ∃ form : Form, form.accepts opcode = true ∧ d.size = form.size opcode second) ∧
      (∀ e, decode m cursor stop = .error e →
        (Checked.decode m stop).exec cursor = .ok (.error e, cursor)) ∧
      (∀ d, decode m cursor stop = .ok d →
        (Checked.decode m stop).exec cursor = .ok (.ok d.instruction, d.next) ∧
          d.next ≠ cursor) ∧
      ∀ (e : DecodeError) (s : Session), decode m cursor stop = .error e →
        s.simulator.memory = m →
        ((s.perform (.decode cursor stop)).1 = .failed (.decode e) ∧
          (s.perform (.decode cursor stop)).2.simulator = s.simulator) ∧
        (s.simulator.cpu.ip = cursor → addressSpace ≤ stop → ∀ count,
          (s.perform (.step (count + 1))).1 = .stepped [] (some (.decode e)) ∧
            (s.perform (.step (count + 1))).2.simulator = s.simulator) := by
  intro final opcode second
  have houtcome := decode_outcome m cursor stop
  refine ⟨houtcome.endOfStream_iff, houtcome.unknownOpcode_iff, houtcome.missingBytes_iff,
    ?_, ?_, ?_, ?_⟩
  · intro d hd
    rw [hd] at houtcome
    exact houtcome.size_of_ok
  · intro e herror
    rw [Checked.decode_eq, herror]
  · intro d hd
    rw [Checked.decode_eq, hd]
    exact ⟨rfl, next_ne_of_decode hd⟩
  · rintro e s herror rfl
    refine ⟨Session.perform_decode_of_error herror, ?_⟩
    rintro rfl hstop count
    apply Session.perform_step_of_decode_error
    -- a bound beyond the last address is the same as none
    have hbound : min stop addressSpace = min addressSpace addressSpace := by omega
    rw [decode] at herror ⊢
    rwa [← hbound]

/-- OR of an immediate is not decoded. Its first byte alone is truncated; with the addressing byte
it is unknown, although the immediate is missing. The cursor stays where it is both times. -/
theorem decode_errors_classified_or :
    let m := (Memory.zero.write 0 0x80).write 1 0x08
    (∃ needed, decode m 0 1 = .error (.missingBytes 0 needed) ∧
        (Checked.decode m 1).exec 0 = .ok (.error (.missingBytes 0 needed), 0)) ∧
      decode m 0 2 = .error (.unknownOpcode 0x80 0) ∧
      (Checked.decode m 2).exec 0 = .ok (.error (.unknownOpcode 0x80 0), 0) := by
  intro m
  have hopcode : m.read 0 = 0x80 := by decide
  have hform : Form.arithmeticImmediate.accepts (m.read 0) = true := by decide
  have hsupported : ¬ Unsupported (m.read 0) (m.second? 0 1) := by
    rw [unsupported_iff_of_form hform]
    rintro ⟨second, hsecond, -⟩
    cases hsecond
  have hunsupported : Unsupported (m.read 0) (m.second? 0 2) :=
    .inSecond hform rfl (by decide)
  obtain ⟨-, -, hmissing, -, hcursor, -⟩ := decode_errors_classified m 0 1
  obtain ⟨needed, htruncated⟩ :=
    (hmissing 0).2 ⟨by decide, hsupported, rfl, _, hform, .inl ⟨rfl, by decide⟩⟩
  obtain ⟨-, hunknown, -, -, hcursor', -⟩ := decode_errors_classified m 0 2
  have hrefused : decode m 0 2 = .error (.unknownOpcode 0x80 0) :=
    (hunknown 0x80 0).2 ⟨by decide, hunsupported, hopcode.symm, rfl⟩
  exact ⟨⟨needed, htruncated, hcursor _ htruncated⟩, hrefused, hcursor' _ hrefused⟩

end Machine8086
