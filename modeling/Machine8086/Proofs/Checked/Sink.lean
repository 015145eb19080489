import Machine8086.Checked.Sink
import Machine8086.Proofs.Checked.Listing

/-!
# What sinks have taken

A sink that takes a number of bytes in all (`Sink.Accepts`) may take them in any portions. However
it does, writing to it until everything is taken leaves it with all bytes if they fit
(`Accepts.writeAll_of_fits`) and with as many as it takes if they do not
(`Accepts.writeAll_of_overflow`). The same then holds of texts that are written one after the other,
wherever they are cut into pieces (`Accepts.putAll_of_fits`, `Accepts.putAll_of_overflow`): the
bytes that reach the sink are the beginning of all of them. The sinks in use are of this kind; for a
file behind a buffer, the bytes that count are those the file has when the buffer is flushed.
-/

namespace Machine8086

@[simp] theorem textBytes_append (first second : String) :
    textBytes (first ++ second) = textBytes first ++ textBytes second := by
  simp [textBytes, String.toByteArray_append]

@[simp] theorem textBytes_empty : textBytes "" = [] := rfl

namespace Checked

namespace Sink

variable {ω : Type} {sink : Sink ω} {accepted : ω → List UInt8} {limit : Option Nat}

/-- The sink takes so many bytes in all, or any number without a limit; what it has taken is a
function of its state. While there is room it takes at least one byte and no more than fit, and
without room it fails or takes none. -/
structure Accepts (sink : Sink ω) (accepted : ω → List UInt8) (limit : Option Nat) : Prop where
  takes : ∀ bytes w, bytes ≠ [] → (∀ most ∈ limit, (accepted w).length < most) →
    ∃ count w', sink bytes w = (.ok count, w') ∧ 0 < count ∧
      accepted w' = accepted w ++ bytes.take count ∧
      ∀ most ∈ limit, (accepted w').length ≤ most
  refuses : ∀ bytes w, (∃ most ∈ limit, most ≤ (accepted w).length) →
    ∃ refusal w', sink bytes w = (refusal, w') ∧ accepted w' = accepted w ∧
      ∀ count, refusal = .ok count → count = 0

namespace Accepts

/-! ## Bytes -/

/-- One portion taken: what is left is offered again. -/
theorem writeAll_cons (h : sink.Accepts accepted limit) (byte : UInt8) (bytes : List UInt8) {w : ω}
    (hroom : ∀ most ∈ limit, (accepted w).length < most) :
    ∃ rest w', sink.writeAll (byte :: bytes) w = sink.writeAll rest w' ∧
      rest.length ≤ bytes.length ∧ accepted w' ++ rest = accepted w ++ byte :: bytes ∧
      ∀ most ∈ limit, (accepted w').length ≤ most := by
  obtain ⟨count, w', hsink, hpos, htaken, hmost⟩ :=
    h.takes (byte :: bytes) w (List.cons_ne_nil byte bytes) hroom
  obtain ⟨count, rfl⟩ := Nat.exists_eq_succ_of_ne_zero (Nat.ne_of_gt hpos)
  refine ⟨bytes.drop count, w', ?_, ?_, ?_, hmost⟩
  · rw [writeAll, hsink]
  · rw [List.length_drop]
    exact Nat.sub_le ..
  · rw [htaken, List.take_succ_cons, List.append_assoc, List.cons_append, List.take_append_drop]

/-- Bytes that fit are taken. -/
theorem writeAll_of_fits (h : sink.Accepts accepted limit) {bytes : List UInt8} {w : ω}
    (hfits : ∀ most ∈ limit, (accepted w ++ bytes).length ≤ most) :
    ∃ w', sink.writeAll bytes w = (.ok (), w') ∧ accepted w' = accepted w ++ bytes := by
  induction hn : bytes.length using Nat.strongRecOn generalizing bytes w with
  | ind n ih =>
    cases bytes with
    | nil => exact ⟨w, by rw [writeAll], (List.append_nil _).symm⟩
    | cons byte bytes =>
      rw [List.length_cons] at hn
      have hroom : ∀ most ∈ limit, (accepted w).length < most := by
        intro most hmost
        have hle := hfits most hmost
        rw [List.length_append, List.length_cons] at hle
        omega
      -- what was taken and what is left are together what they were, but less is left
      obtain ⟨rest, w', hrest, hshorter, hsame, -⟩ := h.writeAll_cons byte bytes hroom
      rw [← hsame] at hfits ⊢
      rw [hrest]
      exact ih rest.length (by omega) hfits rfl

/-- Of bytes that do not fit those are taken that do, and then writing fails. -/
theorem writeAll_of_overflow {most : Nat} (h : sink.Accepts accepted (some most))
    {bytes : List UInt8} {w : ω} (hstart : (accepted w).length ≤ most)
    (hover : most < (accepted w ++ bytes).length) :
    ∃ e w', sink.writeAll bytes w = (.error e, w') ∧
      accepted w' = (accepted w ++ bytes).take most := by
  induction hn : bytes.length using Nat.strongRecOn generalizing bytes w with
  | ind n ih =>
    cases bytes with
    | nil =>
      rw [List.append_nil] at hover
      exact absurd hover (Nat.not_lt.2 hstart)
    | cons byte bytes =>
      rw [List.length_cons] at hn
      rcases Nat.lt_or_eq_of_le hstart with hroom | hfull
      · obtain ⟨rest, w', hrest, hshorter, hsame, hmost⟩ :=
          h.writeAll_cons byte bytes fun _ hlimit => Option.some.inj hlimit ▸ hroom
        rw [← hsame] at hover ⊢
        rw [hrest]
        exact ih rest.length (by omega) (hmost most rfl) hover rfl
      · obtain ⟨refusal, w', hsink, htaken, hzero⟩ :=
          h.refuses (byte :: bytes) w ⟨most, rfl, Nat.le_of_eq hfull.symm⟩
        -- the sink is full, so that nothing more is taken
        have htake : (accepted w ++ byte :: bytes).take most = accepted w := by
          rw [← hfull, List.take_left]
        rw [writeAll, hsink, htake]
        cases refusal with
        | error e => exact ⟨e, w', rfl, htaken⟩
        | ok count =>
          obtain rfl := hzero count rfl
          exact ⟨.nothingTaken, w', rfl, htaken⟩

/-! ## Texts -/

/-- Texts that fit are written. -/
theorem putAll_of_fits (h : sink.Accepts accepted limit) (pieces : List String) {w : ω}
    (hfits : ∀ most ∈ limit, (accepted w ++ textBytes (String.join pieces)).length ≤ most) :
    ∃ w', putAll sink.writer pieces w = (.ok (), w') ∧
      accepted w' = accepted w ++ textBytes (String.join pieces) := by
  induction pieces generalizing w with
  | nil => exact ⟨w, rfl, (List.append_nil _).symm⟩
  | cons piece pieces ih =>
    rw [String.join_cons, textBytes_append, ← List.append_assoc] at hfits ⊢
    have hfirst : ∀ most ∈ limit, (accepted w ++ textBytes piece).length ≤ most := by
      intro most hmost
      have hle := hfits most hmost
      rw [List.length_append] at hle
      omega
    obtain ⟨w', hwrite, htaken⟩ := h.writeAll_of_fits hfirst
    rw [← htaken] at hfits ⊢
    rw [putAll, writer, hwrite]
    exact ih hfits

/-- Of texts that do not fit the beginning is written, up to where the sink is full. -/
theorem putAll_of_overflow {most : Nat} (h : sink.Accepts accepted (some most))
    (pieces : List String) {w : ω} (hstart : (accepted w).length ≤ most)
    (hover : most < (accepted w ++ textBytes (String.join pieces)).length) :
    ∃ e w', putAll sink.writer pieces w = (.error e, w') ∧
      accepted w' = (accepted w ++ textBytes (String.join pieces)).take most := by
  induction pieces generalizing w with
  | nil =>
    rw [String.join_nil, textBytes_empty, List.append_nil] at hover
    exact absurd hover (Nat.not_lt.2 hstart)
  | cons piece pieces ih =>
    rw [String.join_cons, textBytes_append, ← List.append_assoc] at hover ⊢
    rw [putAll, writer]
    rcases Nat.lt_or_ge most (accepted w ++ textBytes piece).length with hlong | hfits
    · -- the sink is full within this piece, and no later one is written
      obtain ⟨e, w', hwrite, htaken⟩ := h.writeAll_of_overflow hstart hlong
      rw [hwrite, List.take_append_of_le_length (Nat.le_of_lt hlong)]
      exact ⟨e, w', rfl, htaken⟩
    · obtain ⟨w', hwrite, htaken⟩ :=
        h.writeAll_of_fits fun _ hlimit => Option.some.inj hlimit ▸ hfits
      rw [← htaken] at hover hfits ⊢
      rw [hwrite]
      exact ih hfits hover

end Accepts

end Sink

/-! ## The sinks in use -/

theorem accepts_keepBytes : keepBytes.Accepts id none where
  takes bytes w hbytes _ :=
    ⟨bytes.length, w ++ bytes, rfl, List.length_pos_iff.2 hbytes, by rw [List.take_length]; rfl,
      nofun⟩
  refuses bytes w := by
    rintro ⟨most, ⟨⟩, -⟩

theorem accepts_limitedSink (limit : Nat) : (limitedSink limit).Accepts id (some limit) where
  takes bytes taken hbytes hroom := by
    have hlt : taken.length < limit := hroom limit rfl
    have hpos : 0 < bytes.length := List.length_pos_iff.2 hbytes
    refine ⟨min (limit - taken.length) bytes.length, _, if_pos hlt, by omega, rfl, ?_⟩
    intro most hmost
    obtain rfl := Option.some.inj hmost
    rw [id, List.length_append, List.length_take]
    omega
  refuses bytes taken := by
    rintro ⟨most, hmost, hfull⟩
    obtain rfl := Option.some.inj hmost
    exact ⟨.error .full, taken, if_neg (Nat.not_lt.2 hfull), rfl, nofun⟩

/-- What a file has when its buffer is flushed. -/
def BufferedFile.flushed (f : BufferedFile) : List UInt8 := f.flush.content

/-- A file behind a buffer takes everything, whatever the buffer has room for. -/
theorem BufferedFile.accepts_sink (capacity : Nat) :
    (BufferedFile.sink capacity).Accepts flushed none where
  takes bytes f hbytes _ := by
    refine ⟨bytes.length, (BufferedFile.sink capacity bytes f).2, ?_, List.length_pos_iff.2 hbytes,
      ?_, nofun⟩
    · rw [sink]
      split <;> rfl
    · rw [List.take_length, flushed, flushed, flush, flush, sink]
      by_cases hflush : capacity < f.held.length + bytes.length
      · rw [if_pos hflush]
        split <;> simp [flush]
      · rw [if_neg hflush]
        split
        case isTrue hsmall => exact (List.append_assoc ..).symm
        case isFalse hlarge =>
          -- bytes that fill the buffer on their own fit only if it is empty
          have hheld : f.held = [] := List.eq_nil_of_length_eq_zero (by omega)
          simp [hheld]
  refuses bytes f := by
    rintro ⟨most, ⟨⟩, -⟩

end Checked

end Machine8086
