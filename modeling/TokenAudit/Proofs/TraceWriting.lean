import TokenAudit.Trace

/-!
# Writing a trace

A line is written in pieces and a trace is written line by line.  A limited writer cannot tell: two
writes, the second only if the first succeeds, are one write of all bytes
(`ByteWriter.write_append`).  So to record tokens is to write their whole text at once
(`TraceWriter.recordAll_eq_put`), and the trace is cut where that one write is.
-/

namespace TokenAudit

namespace ByteWriter

/-- What fits of two byte sequences when the first one does. -/
theorem extract_append_of_le {a b : ByteArray} {n : Nat} (h : a.size ≤ n) :
    (a ++ b).extract 0 n = a ++ b.extract 0 (n - a.size) := by
  have hwhole : a.extract 0 n = a := by
    apply ByteArray.ext
    rw [ByteArray.data_extract]
    exact Array.extract_eq_self_of_le h
  rw [ByteArray.extract_append, hwhole, Nat.zero_sub]

/-- What fits of two byte sequences when the first one does not. -/
theorem extract_append_of_gt {a b : ByteArray} {n : Nat} (h : n ≤ a.size) :
    (a ++ b).extract 0 n = a.extract 0 n := by
  rw [ByteArray.extract_append, Nat.sub_eq_zero_of_le h, Nat.zero_sub, ByteArray.extract_same,
    ByteArray.append_empty]

/-- One write is two writes of its parts, the second only if the first succeeds. -/
theorem write_append (w : ByteWriter) (a b : ByteArray) :
    w.write (a ++ b) =
      match w.write a with
      | (.ok (), w) => w.write b
      | (.error reason, w) => (.error reason, w) := by
  cases hroom : w.room with
  | none => simp only [write, hroom, ByteArray.append_assoc]
  | some room =>
      simp only [write, hroom, ByteArray.size_append]
      by_cases ha : a.size ≤ room
      · by_cases hb : a.size + b.size ≤ room
        · have hrest : b.size ≤ room - a.size := by omega
          simp only [ha, hb, hrest, if_true, ByteArray.append_assoc, Nat.sub_sub]
        · have hrest : ¬b.size ≤ room - a.size := by omega
          simp only [ha, hb, hrest, if_true, if_false, ByteArray.append_assoc,
            extract_append_of_le ha]
      · have hab : ¬a.size + b.size ≤ room := by omega
        simp only [ha, hab, if_false, extract_append_of_gt (Nat.le_of_not_le ha)]

theorem write_empty (w : ByteWriter) : w.write .empty = (.ok (), w) := by
  obtain ⟨room, recovers, written, failures⟩ := w
  cases room <;> simp [write, ByteArray.append_empty]

/-- Pieces are written as the text that they make up. -/
theorem writeAll_eq (w : ByteWriter) (pieces : List String) :
    w.writeAll pieces = w.write (String.join pieces).toUTF8 := by
  induction pieces generalizing w with
  | nil => exact (write_empty w).symm
  | cons piece pieces ih =>
      have hbytes : (String.join (piece :: pieces)).toUTF8 =
          piece.toUTF8 ++ (String.join pieces).toUTF8 := by
        rw [String.join_cons]
        exact String.toByteArray_append
      rw [writeAll, hbytes, write_append]
      rcases w.write piece.toUTF8 with ⟨reason | _, after⟩
      · rfl
      · exact ih after

end ByteWriter

/-- To record some tokens and then others is to record all of them. -/
theorem recordAll_append {κ : Type} [TokenSink κ] (sink : κ) (tokens more : List Token) :
    TokenSink.recordAll sink (tokens ++ more) =
      TokenSink.recordAll sink tokens >>= (TokenSink.recordAll · more) := by
  induction tokens generalizing sink with
  | nil => exact (pure_bind sink (TokenSink.recordAll · more)).symm
  | cons t tokens ih =>
      show TokenSink.record sink t >>= (TokenSink.recordAll · (tokens ++ more)) =
        (TokenSink.record sink t >>= (TokenSink.recordAll · tokens)) >>=
          (TokenSink.recordAll · more)
      rw [bind_assoc]
      exact bind_congr fun sink => ih sink

/-- The lines of tokens, each with its line feed. -/
def traceText (tokens : List Token) : String :=
  String.join (tokens.map fun t => t.render ++ "\n")

theorem Token.join_linePieces (t : Token) : String.join t.linePieces = t.render ++ "\n" := by
  simp only [Token.linePieces, Token.render, String.join_cons, String.append_assoc]
  rfl

namespace TraceWriter

/-- A trace writer after one write of bytes. -/
def put (sink : TraceWriter) (bytes : ByteArray) : Logged TraceWriter :=
  if sink.stopped then return sink
  else
    match sink.writer.write bytes with
    | (.ok (), writer) => return { sink with writer }
    | (.error reason, writer) => ⟨{ writer, stopped := true }, [.traceDisabled reason]⟩

theorem put_of_stopped {sink : TraceWriter} (h : sink.stopped = true) (bytes : ByteArray) :
    sink.put bytes = pure sink := if_pos h

theorem put_append (sink : TraceWriter) (a b : ByteArray) :
    sink.put (a ++ b) = sink.put a >>= (put · b) := by
  cases hstopped : sink.stopped with
  | true => simp only [put_of_stopped hstopped, pure_bind]
  | false =>
      simp only [put, hstopped, Bool.false_eq_true, if_false, ByteWriter.write_append]
      rcases sink.writer.write a with ⟨reason | _, writer⟩
      · rfl
      · exact (pure_bind (TraceWriter.mk writer false) (put · b)).symm

theorem record_eq_put (sink : TraceWriter) (t : Token) :
    TokenSink.record sink t = sink.put (t.render ++ "\n").toUTF8 := by
  rw [← Token.join_linePieces]
  show sink.record t = _
  rw [record, put, ← ByteWriter.writeAll_eq]
  rfl

/-- To record tokens is to write all of their lines at once. -/
theorem recordAll_eq_put (sink : TraceWriter) (tokens : List Token) :
    TokenSink.recordAll sink tokens = sink.put (traceText tokens).toUTF8 := by
  induction tokens generalizing sink with
  | nil =>
      show pure sink = sink.put .empty
      simp only [put, ByteWriter.write_empty, ite_self]
  | cons t tokens ih =>
      have hbytes : (traceText (t :: tokens)).toUTF8 =
          (t.render ++ "\n").toUTF8 ++ (traceText tokens).toUTF8 := by
        rw [traceText, List.map_cons, String.join_cons]
        exact String.toByteArray_append
      rw [hbytes, put_append, ← record_eq_put]
      show TokenSink.record sink t >>= (TokenSink.recordAll · tokens) = _
      exact bind_congr fun sink => ih sink

/-- A trace writer that has failed does nothing any more. -/
theorem recordAll_of_stopped {sink : TraceWriter} (h : sink.stopped = true) (tokens : List Token) :
    TokenSink.recordAll sink tokens = pure sink := by
  rw [recordAll_eq_put, put_of_stopped h]

/-- Tokens behind a failure change neither what was written nor what was told. -/
theorem recordAll_append_of_stopped {sink : TraceWriter} {tokens : List Token}
    (h : (TokenSink.recordAll sink tokens).value.stopped = true) (later : List Token) :
    TokenSink.recordAll sink (tokens ++ later) = TokenSink.recordAll sink tokens := by
  have hlater := recordAll_of_stopped h later
  rw [recordAll_append]
  apply Logged.ext_events
  · rw [Logged.value_bind, hlater, Logged.value_pure]
  · rw [Logged.events_bind, hlater, Logged.events_pure, List.append_nil]

theorem put_of_fits {room : Nat} {bytes : ByteArray} (h : bytes.size ≤ room) (recovers : Bool) :
    TraceWriter.put { writer := { room := some room, recovers } } bytes =
      pure { writer := { room := some (room - bytes.size), recovers, written := bytes } } := by
  simp [put, ByteWriter.write, h, ByteArray.empty_append]

theorem put_of_overflows {room : Nat} {bytes : ByteArray} (h : room < bytes.size)
    (recovers : Bool) :
    TraceWriter.put { writer := { room := some room, recovers } } bytes =
      ⟨{ writer := {
           room := if recovers then none else some 0
           recovers
           written := bytes.extract 0 room
           failures := 1 }
         stopped := true },
       [.traceDisabled ByteWriter.fullMessage]⟩ := by
  simp [put, ByteWriter.write, Nat.not_le_of_gt h, ByteArray.empty_append]

end TraceWriter

/-- A trace through a writer with room for so many bytes holds as many of the bytes of its lines as
fit.  If not all do, one write fails, one warning is told and nothing is written from then on, also
by a writer that would take more. -/
theorem trace_is_cut_once (tokens : List Token) (room : Nat) (recovers : Bool) :
    let bytes := (traceText tokens).toUTF8
    let fresh : TraceWriter := { writer := { room := some room, recovers } }
    let recorded := TokenSink.recordAll fresh tokens
    recorded.value.writer.written = bytes.extract 0 (min room bytes.size) ∧
      recorded.value.writer.failures = (if room < bytes.size then 1 else 0) ∧
      recorded.events =
        (if room < bytes.size then [.traceDisabled ByteWriter.fullMessage] else []) ∧
      recorded.events.map Log.Event.severity = (if room < bytes.size then [.warn] else []) ∧
      (room < bytes.size → ∀ later : List Token,
        TokenSink.recordAll fresh (tokens ++ later) = recorded ∧
        ∀ writer : ByteWriter, TokenSink.recordAll { recorded.value with writer } later =
          pure { recorded.value with writer }) := by
  intro bytes fresh recorded
  have hrecorded : recorded = fresh.put bytes := TraceWriter.recordAll_eq_put fresh tokens
  rcases Nat.lt_or_ge room bytes.size with hroom | hroom
  · have hput := TraceWriter.put_of_overflows hroom recovers
    have hstopped : recorded.value.stopped = true := by rw [hrecorded, hput]
    have hlater (later : List Token) : TokenSink.recordAll fresh (tokens ++ later) = recorded :=
      TraceWriter.recordAll_append_of_stopped hstopped later
    rw [hrecorded, hput] at hlater ⊢
    rw [Nat.min_eq_left (Nat.le_of_lt hroom), if_pos hroom, if_pos hroom, if_pos hroom]
    exact ⟨rfl, rfl, rfl, rfl, fun _ later =>
      ⟨hlater later, fun writer => TraceWriter.recordAll_of_stopped rfl later⟩⟩
  · have hnot : ¬room < bytes.size := Nat.not_lt_of_ge hroom
    rw [hrecorded, TraceWriter.put_of_fits hroom, Nat.min_eq_right hroom, if_neg hnot, if_neg hnot,
      if_neg hnot, ByteArray.extract_zero_size]
    exact ⟨rfl, rfl, rfl, rfl, fun h => absurd h hnot⟩

/-- With room for seven bytes the line of `é` is cut inside of `é`, and a writer that would take
more gets nothing of the line behind it. -/
theorem trace_is_cut_inside_character :
    let word : Token := ⟨.identifier, "é", .start⟩
    let fresh : TraceWriter := { writer := { room := some 7, recovers := true } }
    let recorded := TokenSink.recordAll fresh [word]
    7 < (traceText [word]).toUTF8.size ∧
      recorded.value.writer.written = "[1,1]:".toUTF8.push 0xC3 ∧
      recorded.value.writer.failures = 1 ∧
      recorded.events = [.traceDisabled ByteWriter.fullMessage] ∧
      TokenSink.recordAll fresh [word, .fixed .plus ⟨1, 2⟩] = recorded := by
  intro word fresh recorded
  have hroom : 7 < (traceText [word]).toUTF8.size := by decide
  obtain ⟨hwritten, hfailures, hevents, -, hlater⟩ := trace_is_cut_once [word] 7 true
  exact ⟨hroom, hwritten.trans (by decide), hfailures.trans (if_pos hroom),
    hevents.trans (if_pos hroom), (hlater hroom [.fixed .plus ⟨1, 2⟩]).1⟩

end TokenAudit
