import Machine8086.Checked.Simulator

/-!
# Sinks of bytes

A sink is offered bytes and takes some of them from the front, or fails. A text is written to it by
offering the bytes of the text again and again until all of them are taken (`writeAll`), so that a
sink is a writer of texts (`Sink.writer`). Three sinks are in use: one that keeps all bytes, one
that takes a limited number of them in all, and a file behind a buffer, which is flushed at the
end.
-/

namespace Machine8086

/-- The bytes of a text. -/
def textBytes (text : String) : List UInt8 := text.toByteArray.data.toList

namespace Checked

/-- Why bytes are not written. -/
inductive SinkError where
  /-- The sink takes no more. -/
  | full
  /-- The sink took none of the bytes it was offered. -/
  | nothingTaken
  deriving DecidableEq, Repr

/-- A sink in states `ω`. It takes a number of the bytes it is offered, from the front, or fails. -/
abbrev Sink (ω : Type) := List UInt8 → ω → Except SinkError Nat × ω

namespace Sink

variable {ω : Type} (sink : Sink ω)

/-- Offers bytes until the sink has taken all of them. It is an error if it takes none. -/
def writeAll : List UInt8 → ω → Except SinkError Unit × ω
  | [], w => (.ok (), w)
  | byte :: bytes, w =>
    match sink (byte :: bytes) w with
    | (.error e, w) => (.error e, w)
    | (.ok 0, w) => (.error .nothingTaken, w)
    | (.ok (count + 1), w) => writeAll (bytes.drop count) w
termination_by bytes => bytes.length
decreasing_by
  rw [List.length_drop, List.length_cons]
  omega

/-- A sink as a writer of texts. -/
def writer : Writer ω SinkError := fun piece w => sink.writeAll (textBytes piece) w

end Sink

/-- The sink that keeps all bytes. -/
def keepBytes : Sink (List UInt8) := fun bytes kept => (.ok bytes.length, kept ++ bytes)

/-- The sink that takes so many bytes in all. Of bytes that do not fit it takes the beginning, and
when it is full it fails. -/
def limitedSink (limit : Nat) : Sink (List UInt8) := fun bytes taken =>
  if taken.length < limit then
    let count := min (limit - taken.length) bytes.length
    (.ok count, taken ++ bytes.take count)
  else (.error .full, taken)

/-- A file with a buffer in front of it. -/
structure BufferedFile where
  content : List UInt8 := []
  held : List UInt8 := []
  deriving DecidableEq, Repr

namespace BufferedFile

/-- Writes what the buffer holds to the file. -/
def flush (f : BufferedFile) : BufferedFile := ⟨f.content ++ f.held, []⟩

/-- The sink in front of the file. The buffer is flushed before bytes that it has no room for, and
bytes that would fill it go to the file at once. -/
def sink (capacity : Nat) : Sink BufferedFile := fun bytes f =>
  let f := if capacity < f.held.length + bytes.length then f.flush else f
  if bytes.length < capacity then (.ok bytes.length, { f with held := f.held ++ bytes })
  else (.ok bytes.length, { f with content := f.content ++ bytes })

end BufferedFile

end Checked

end Machine8086
