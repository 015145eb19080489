import Machine8086.Decode
import Machine8086.Proofs.Encoding

/-!
# What the readers accept

A byte reader is described by a relation between the bytes it uses and the value it returns.
`ByteReader.Reads reader rel` says that the reader succeeds exactly on inputs that begin with bytes
related to a value, and that it hands back the rest. The statement is an equivalence, so that it
composes: a sequence of readers reads the concatenation (`reads_bind`). Each reader of the decoder
is related here to its part of the encoding table.
-/

namespace Machine8086.ByteReader

variable {α β : Type}

/-- The reader succeeds exactly on inputs that begin with bytes `rel` relates to a value; it returns
that value and the rest of the input. -/
def Reads (reader : ByteReader α) (rel : List UInt8 → α → Prop) : Prop :=
  ∀ bytes a rest,
    reader.run bytes = .ok (a, rest) ↔ ∃ used, bytes = used ++ rest ∧ rel used a

theorem Reads.congr {reader : ByteReader α} {rel rel' : List UInt8 → α → Prop}
    (h : Reads reader rel) (hrel : ∀ used a, rel used a ↔ rel' used a) : Reads reader rel' := by
  intro bytes a rest
  rw [h bytes a rest]
  constructor
  · rintro ⟨used, hbytes, hused⟩
    exact ⟨used, hbytes, (hrel used a).1 hused⟩
  · rintro ⟨used, hbytes, hused⟩
    exact ⟨used, hbytes, (hrel used a).2 hused⟩

/-! ## Sequences -/

theorem reads_pure (a : α) :
    Reads (pure a) fun used b => used = [] ∧ b = a := by
  intro bytes b rest
  show (.ok (a, bytes) : Except Malformed (α × List UInt8)) = .ok (b, rest) ↔ _
  constructor
  · intro h
    cases h
    exact ⟨[], rfl, rfl, rfl⟩
  · rintro ⟨used, rfl, rfl, rfl⟩
    rfl

theorem run_bind_eq_ok {reader : ByteReader α} {next : α → ByteReader β} {bytes rest : List UInt8}
    {b : β} : (reader >>= next).run bytes = .ok (b, rest) ↔
      ∃ a left, reader.run bytes = .ok (a, left) ∧ (next a).run left = .ok (b, rest) := by
  show (reader.run bytes >>= fun p => (next p.1).run p.2) = .ok (b, rest) ↔ _
  cases h : reader.run bytes with
  | error e =>
    constructor
    · intro h
      cases h
    · rintro ⟨a, left, h, -⟩
      cases h
  | ok p =>
    constructor
    · intro h
      exact ⟨p.1, p.2, rfl, h⟩
    · rintro ⟨a, left, h, hnext⟩
      cases h
      exact hnext

/-- A sequence of readers reads the concatenation of what each of them reads. -/
theorem reads_bind {reader : ByteReader α} {next : α → ByteReader β}
    {rel : List UInt8 → α → Prop} {rel' : α → List UInt8 → β → Prop}
    (h : Reads reader rel) (h' : ∀ a, Reads (next a) (rel' a)) :
    Reads (reader >>= next) fun used b =>
      ∃ first second a, used = first ++ second ∧ rel first a ∧ rel' a second b := by
  intro bytes b rest
  rw [run_bind_eq_ok]
  constructor
  · rintro ⟨a, left, hreader, hnext⟩
    -- the second reader starts where the first one stopped
    obtain ⟨first, rfl, hfirst⟩ := (h bytes a left).1 hreader
    obtain ⟨second, rfl, hsecond⟩ := (h' a left b rest).1 hnext
    exact ⟨first ++ second, (List.append_assoc ..).symm, first, second, a, rfl, hfirst, hsecond⟩
  · rintro ⟨used, rfl, first, second, a, rfl, hfirst, hsecond⟩
    refine ⟨a, second ++ rest, ?_, ?_⟩
    · exact (h _ a _).2 ⟨first, List.append_assoc .., hfirst⟩
    · exact (h' a _ b rest).2 ⟨second, rfl, hsecond⟩

/-- Returning a function of what was read. -/
theorem reads_map {reader : ByteReader α} {rel : List UInt8 → α → Prop} (f : α → β)
    (h : Reads reader rel) :
    Reads (reader >>= fun a => pure (f a)) fun used b => ∃ a, rel used a ∧ b = f a := by
  refine (reads_bind h fun a => reads_pure (f a)).congr fun used b => ?_
  constructor
  · rintro ⟨first, second, a, rfl, hfirst, rfl, rfl⟩
    exact ⟨a, by rwa [List.append_nil], rfl⟩
  · rintro ⟨a, hused, rfl⟩
    exact ⟨used, [], a, (List.append_nil used).symm, hused, rfl, rfl⟩

/-! ## Bytes and words -/

theorem reads_byte : Reads byte fun used value => used = [value] := by
  intro bytes value rest
  cases bytes with
  | nil =>
    show (.error (.truncated 1) : Except Malformed (UInt8 × List UInt8)) = _ ↔ _
    simp
  | cons first left =>
    show (.ok (first, left) : Except Malformed (UInt8 × List UInt8)) = _ ↔ _
    simp

theorem reads_word : Reads word fun used value => used = wordBytes value := by
  intro bytes value rest
  match bytes with
  | [] =>
    show (.error (.truncated 2) : Except Malformed (UInt16 × List UInt8)) = _ ↔ _
    simp [wordBytes]
  | [_] =>
    show (.error (.truncated 1) : Except Malformed (UInt16 × List UInt8)) = _ ↔ _
    simp [wordBytes]
  | low :: high :: left =>
    show (.ok ((high.toUInt16 <<< 8) ||| low.toUInt16, left) :
      Except Malformed (UInt16 × List UInt8)) = _ ↔ _
    rw [Except.ok.injEq, Prod.mk.injEq, joined_bytes_eq_iff]
    simp [wordBytes, and_assoc]

/-- A byte that is taken as a signed number. -/
theorem reads_signed (f : Int8 → α) :
    Reads (byte >>= fun value => pure (f value.toInt8)) fun used a =>
      ∃ signed : Int8, used = [signed.toUInt8] ∧ a = f signed := by
  refine (reads_map (fun value => f value.toInt8) reads_byte).congr fun used a => ?_
  constructor
  · rintro ⟨value, rfl, rfl⟩
    exact ⟨value.toInt8, rfl, rfl⟩
  · rintro ⟨signed, rfl, rfl⟩
    exact ⟨signed.toUInt8, rfl, rfl⟩

theorem reads_signedByte : Reads signedByte fun used value =>
    ∃ signed : Int8, used = [signed.toUInt8] ∧ value = signed.toInt16.toUInt16 :=
  reads_signed fun signed => signed.toInt16.toUInt16

/-! ## Immediates -/

theorem reads_immediate (w : Width) : Reads (immediate w) (EncodesImmediate w) := by
  cases w with
  | byte =>
    refine (reads_map Immediate.ofByte reads_byte).congr fun used imm => ?_
    constructor
    · rintro ⟨value, rfl, rfl⟩
      exact .byte value
    · rintro ⟨value⟩
      exact ⟨value, rfl, rfl⟩
  | word =>
    refine (reads_map Immediate.ofWord reads_word).congr fun used imm => ?_
    constructor
    · rintro ⟨value, rfl, rfl⟩
      exact .word value
    · rintro ⟨value⟩
      exact ⟨_, rfl, rfl⟩

theorem reads_immediateOrShort (s : Bool) (w : Width) :
    Reads (immediateOrShort s w) (EncodesShort s w) := by
  cases w with
  | byte =>
    -- the `s` bit has no effect on bytes
    have h : immediateOrShort s .byte = immediate .byte := by cases s <;> rfl
    rw [h]
    refine (reads_immediate .byte).congr fun used imm => ?_
    constructor
    · rintro ⟨value⟩
      exact .byte s value
    · rintro ⟨⟩
      exact .byte _
  | word =>
    cases s with
    | false =>
      refine (reads_immediate .word).congr fun used imm => ?_
      constructor
      · rintro ⟨⟩
        exact .word _
      · rintro ⟨⟩
        exact .word _
    | true =>
      refine (reads_map Immediate.ofWord reads_signedByte).congr fun used imm => ?_
      constructor
      · rintro ⟨value, ⟨signed, rfl, rfl⟩, rfl⟩
        exact .extended signed
      · rintro ⟨⟩
        exact ⟨_, ⟨_, rfl, rfl⟩, rfl⟩

theorem reads_require (o : Option α) : Reads (require o) fun used a => used = [] ∧ o = some a := by
  cases o with
  | none =>
    intro bytes a rest
    show (.error .unknown : Except Malformed (α × List UInt8)) = _ ↔ _
    simp
  | some value =>
    refine Reads.congr (reads_pure value) fun used a => ?_
    rw [Option.some.injEq, eq_comm (a := value)]

end Machine8086.ByteReader
