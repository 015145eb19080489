import Machine8086.Proofs.Ascii
import Machine8086.Proofs.Checked.Sink
import Machine8086.Proofs.CommandLine.Outcome

/-!
# Listings that are cut short

A listing is written piece by piece, and two things may end it: an instruction that does not decode,
and a sink that takes no more. A sink that has room for the text of the listing gets this text, and
the listing ends as it does on its own (`Checked.exec_disassembleTo_of_fits`). Any other sink gets
the beginning of the text for which it has room, and then the failure of the sink is what is
reported, be there an undecodable instruction or not (`Checked.exec_disassembleTo_of_overflow`). The
listing as a text, the requests of a session and the command line are all of this kind
(`listing_cut_by_sink`).
-/

namespace Machine8086

namespace Checked

variable {ω : Type} {sink : Sink ω} {accepted : ω → List UInt8} {s : Simulator}

theorem exec_disassembleTo_of_fits {limit : Option Nat} (hextent : s.ExtentInMemory)
    (h : sink.Accepts accepted limit) {w : ω} (hstart : accepted w = [])
    (hfits : ∀ most ∈ limit, (textBytes s.listing.text).length ≤ most) :
    ∃ w', (disassembleTo sink.writer).exec (s, w) =
        .ok (s.listing.count.mapError .listing, s, w') ∧
      accepted w' = textBytes s.listing.text := by
  have hput := @Sink.Accepts.putAll_of_fits _ _ _ _ h (pieces s.listing) w
  rw [hstart, List.nil_append, join_pieces] at hput
  obtain ⟨w', hwrite, htaken⟩ := hput hfits
  refine ⟨w', ?_, htaken⟩
  rw [exec_disassembleTo hextent, hwrite, listingEnd, Listing.count, Nat.zero_add]
  cases s.listing.failure with
  | none => rfl
  | some e => rfl

theorem exec_disassembleTo_of_overflow {most : Nat} (hextent : s.ExtentInMemory)
    (h : sink.Accepts accepted (some most)) {w : ω} (hstart : accepted w = [])
    (hover : most < (textBytes s.listing.text).length) :
    ∃ e w', (disassembleTo sink.writer).exec (s, w) = .ok (.error (.writer e), s, w') ∧
      accepted w' = (textBytes s.listing.text).take most := by
  have hput := @Sink.Accepts.putAll_of_overflow _ _ _ _ h (pieces s.listing) w
  rw [hstart, List.nil_append, join_pieces] at hput
  obtain ⟨e, w', hwrite, htaken⟩ := hput (Nat.zero_le most) hover
  refine ⟨e, w', ?_, htaken⟩
  rw [exec_disassembleTo hextent, hwrite, listingEnd]

end Checked

/-- A text of limited length is the listing in as many bytes. -/
theorem Listing.textBytes_writeTo (listing : Listing) (limit : Nat) :
    ((textBytes listing.text).length ≤ limit →
      textBytes (listing.writeTo limit).text = textBytes listing.text ∧
        (listing.writeTo limit).result = listing.count.mapError .listing) ∧
    (limit < (textBytes listing.text).length →
      textBytes (listing.writeTo limit).text = (textBytes listing.text).take limit ∧
        (listing.writeTo limit).result = .error .full) := by
  rw [listing.ascii_text.length_textBytes, writeTo]
  constructor
  · intro hfits
    rw [if_pos hfits]
    exact ⟨rfl, rfl⟩
  · intro hover
    rw [if_neg (Nat.not_le.2 hover)]
    exact ⟨listing.ascii_text.textBytes_take limit, rfl⟩

theorem Listing.exists_count_iff (listing : Listing) :
    (∃ count, listing.count = .ok count) ↔ listing.failure = none := by
  rw [count]
  cases listing.failure <;> simp

namespace CommandLine

variable {files : Files Id} {options : Options} {file : String} {s : Simulator} {log : Log}

/-- The exit code tells whether there is a report. -/
theorem Outcome.code_ofLog_eq_zero_iff (log : Log) (stdout : String) (failure : Option Report) :
    (Outcome.ofLog log stdout failure).code = 0 ↔ failure = none := by
  cases failure <;> simp [ofLog]

/-- A listing that is printed. -/
theorem listTo_of_stdout (houtput : options.output = none) :
    listTo files options s log =
      Outcome.ofLog (log.report s.listing.events) s.listing.text
        (s.listing.failure.map fun e => .ofFailure (.write (.listing e))) := by
  rw [listTo, houtput]
  rfl

/-- A listing that goes to a file. -/
theorem listTo_of_output {path : String} (houtput : options.output = some path)
    (hcreate : files.create path = Except.ok ()) :
    listTo files options s log =
      { Outcome.ofLog (log.report s.listing.events) ""
          (s.listing.failure.map fun e => .ofFailure (.write (.listing e))) with
        output := some (path, s.listing.text) } := by
  rw [listTo, houtput]
  dsimp only
  rw [hcreate]
  rfl

/-- What the listing command prints or writes, and when its exit code is zero. -/
theorem run_disasm (h : Loads files options file s log) :
    (options.output = none →
      ∃ outcome : Outcome, Request.run files (.disasm options file) = outcome ∧
        outcome.stdout = s.listing.text ∧ outcome.output = none ∧
        (outcome.code = 0 ↔ ∃ count, s.listing.count = .ok count)) ∧
    ∀ path, options.output = some path → files.create path = Except.ok () →
      ∃ outcome : Outcome, Request.run files (.disasm options file) = outcome ∧
        outcome.stdout = "" ∧ outcome.output = some (path, s.listing.text) ∧
        (outcome.code = 0 ↔ ∃ count, s.listing.count = .ok count) := by
  have hrun : Request.run files (.disasm options file) = listTo files options s log :=
    h.withProgram_eq _
  have hcode : (s.listing.failure.map fun e => Report.ofFailure (.write (.listing e))) = none ↔
      ∃ count, s.listing.count = .ok count :=
    Option.map_eq_none_iff.trans s.listing.exists_count_iff.symm
  constructor
  · intro houtput
    exact ⟨_, hrun.trans (listTo_of_stdout houtput), rfl, rfl,
      (Outcome.code_ofLog_eq_zero_iff ..).trans hcode⟩
  · intro path houtput hcreate
    exact ⟨_, hrun.trans (listTo_of_output houtput hcreate), rfl, rfl,
      (Outcome.code_ofLog_eq_zero_iff (log.report s.listing.events) "" _).trans hcode⟩

end CommandLine

open Checked CommandLine in
/-- A listing that is cut short by its sink is a prefix of the whole listing. Let `text` and
`result` be what a sink gets that keeps all bytes; a file behind a buffer has the same when it is
flushed. A sink that takes a limited number of bytes in all, in whatever portions, gets the text
with the same result if it has room for it; otherwise it gets as many bytes of it as it takes, and
the result is the failure of the sink. The listing as a text is `text` if there is a count and the
error otherwise, and sessions answer accordingly. The command line prints the text, or leaves it in
the output file, and ends with code 0 exactly if there is a count. -/
theorem listing_cut_by_sink {s : Simulator} (hextent : s.ExtentInMemory) :
    ∃ (text : String) (result : Except ListingError Nat),
      (disassembleTo keepBytes.writer).exec (s, []) =
          .ok (result.mapError .listing, s, textBytes text) ∧
      (∀ capacity, ∃ f, (disassembleTo (BufferedFile.sink capacity).writer).exec (s, {}) =
          .ok (result.mapError .listing, s, f) ∧ f.flush.content = textBytes text) ∧
      (∀ (ω : Type) (sink : Sink ω) (accepted : ω → List UInt8) (limit : Option Nat) (w : ω),
        sink.Accepts accepted limit → accepted w = [] →
          ∃ taken w', (disassembleTo sink.writer).exec (s, w) = .ok (taken, s, w') ∧
            ((∀ most ∈ limit, (textBytes text).length ≤ most) →
              taken = result.mapError .listing ∧ accepted w' = textBytes text) ∧
            ∀ most ∈ limit, most < (textBytes text).length →
              (∃ e, taken = .error (.writer e)) ∧ accepted w' = (textBytes text).take most) ∧
      Checked.disassemble.exec s = .ok (result.map fun _ => text, s) ∧
      (∀ session : Session, session.simulator = s →
        (session.perform .disassemble).1 =
            (match result with
              | .ok _ => .listing text
              | .error e => .failed (.write (.listing e))) ∧
          ∀ limit, ∃ cut, (session.perform (.disassembleTo (some limit))).1 = .written cut ∧
            ((textBytes text).length ≤ limit →
              textBytes cut.text = textBytes text ∧ cut.result = result.mapError .listing) ∧
            (limit < (textBytes text).length →
              textBytes cut.text = (textBytes text).take limit ∧ cut.result = .error .full)) ∧
      ∀ (files : Files Id) (options : Options) (file : String) (log : Log),
        Loads files options file s log →
          (options.output = none →
            ∃ outcome : Outcome, CommandLine.Request.run files (.disasm options file) = outcome ∧
              outcome.stdout = text ∧ outcome.output = none ∧
              (outcome.code = 0 ↔ ∃ count, result = .ok count)) ∧
          ∀ path, options.output = some path → files.create path = Except.ok () →
            ∃ outcome : Outcome, CommandLine.Request.run files (.disasm options file) = outcome ∧
              outcome.stdout = "" ∧ outcome.output = some (path, text) ∧
              (outcome.code = 0 ↔ ∃ count, result = .ok count) := by
  refine ⟨s.listing.text, s.listing.count, ?_, ?_, ?_, ?_, ?_, ?_⟩
  · obtain ⟨w', hexec, htaken⟩ := exec_disassembleTo_of_fits hextent accepts_keepBytes rfl nofun
    rw [hexec, ← htaken]
    rfl
  · intro capacity
    exact exec_disassembleTo_of_fits hextent (BufferedFile.accepts_sink capacity) rfl nofun
  · intro ω sink accepted limit w haccepts hstart
    by_cases hfits : ∀ most ∈ limit, (textBytes s.listing.text).length ≤ most
    · obtain ⟨w', hexec, htaken⟩ := exec_disassembleTo_of_fits hextent haccepts hstart hfits
      refine ⟨_, w', hexec, fun _ => ⟨rfl, htaken⟩, ?_⟩
      intro most hmost hover
      exact absurd (hfits most hmost) (Nat.not_le.2 hover)
    · cases limit with
      | none => exact absurd nofun hfits
      | some most =>
        have hover : most < (textBytes s.listing.text).length := by
          by_contra hle
          exact hfits fun _ hlimit => Option.some.inj hlimit ▸ Nat.not_lt.1 hle
        obtain ⟨e, w', hexec, htaken⟩ :=
          exec_disassembleTo_of_overflow hextent haccepts hstart hover
        refine ⟨_, w', hexec, fun h => absurd h hfits, ?_⟩
        rintro most ⟨rfl⟩ -
        exact ⟨⟨e, rfl⟩, htaken⟩
  · rw [exec_disassemble hextent, Listing.disassembly, Listing.count]
    cases s.listing.failure <;> rfl
  · rintro session rfl
    constructor
    · rw [Session.perform, Listing.disassembly, Listing.count]
      cases session.simulator.listing.failure <;> rfl
    · intro limit
      obtain ⟨hfits, hover⟩ := session.simulator.listing.textBytes_writeTo limit
      exact ⟨_, rfl, hfits, hover⟩
  · intro files options file log hloads
    exact run_disasm hloads

open Checked in
/-- A program whose second instruction does not decode. However many bytes of its listing a sink
takes, they are a prefix of what a sink without a limit gets. -/
theorem listing_cut_by_sink_undecodable :
    ∃ s : Simulator, Simulator.load {} [0x89, 0xD9, 0xFF] 0 = .ok s ∧ s.ExtentInMemory ∧
      ∃ (text : String) (result : Except ListingError Nat),
        (disassembleTo keepBytes.writer).exec (s, []) =
            .ok (result.mapError .listing, s, textBytes text) ∧
        ∀ limit, ∃ taken kept,
          (disassembleTo (limitedSink limit).writer).exec (s, []) = .ok (taken, s, kept) ∧
            ((textBytes text).length ≤ limit → kept = textBytes text) ∧
            (limit < (textBytes text).length → kept = (textBytes text).take limit) := by
  obtain ⟨s, hload⟩ : ∃ s : Simulator, Simulator.load {} [0x89, 0xD9, 0xFF] 0 = .ok s :=
    ⟨_, (Simulator.load_eq_ok_iff ..).2 ⟨by decide, rfl⟩⟩
  have hextent := Simulator.extentInMemory_of_load hload
  obtain ⟨text, result, hwhole, -, hsinks, -⟩ := listing_cut_by_sink hextent
  refine ⟨s, hload, hextent, text, result, hwhole, fun limit => ?_⟩
  obtain ⟨taken, kept, hexec, hfits, hover⟩ :=
    hsinks _ (limitedSink limit) id (some limit) [] (accepts_limitedSink limit) rfl
  refine ⟨taken, kept, hexec, ?_, fun h => (hover limit rfl h).2⟩
  intro h
  exact (hfits fun _ hlimit => Option.some.inj hlimit ▸ h).2

end Machine8086
