import OpenCam.Linux.DiagnosticRedaction

/-!
`DiagnosticLineRedactor` over a stream: what it outputs is a function of the
lines of the stream, however the stream is cut into chunks.
-/

namespace OpenCam.Linux.DiagnosticLineRedactor

open Octets

/-- What the redactor makes of a complete line. -/
def lineOutput (line : Bytes) : Bytes :=
  if line.length ≤ MAX_LINE_BYTES then sanitize (redactCompleteLine (line ++ [10]))
  else omission

/-- The state behind the bytes of a line that has not ended. -/
def within (line : Bytes) : DiagnosticLineRedactor :=
  if line.length ≤ MAX_LINE_BYTES then { pending := line, discarding := false }
  else { pending := [], discarding := true }

theorem within_nil : within [] = {} := rfl

theorem within_bounded (line : Bytes) : (within line).pending.length ≤ MAX_LINE_BYTES := by
  unfold within
  split
  · next h => exact h
  · exact Nat.zero_le _

/-- A byte of the line is added to what is known of it. -/
theorem take_within (line : Bytes) {c : UInt8} (hc : c ≠ 10) :
    (within line).take c = ([], within (line ++ [c])) := by
  have hlength : (line ++ [c]).length = line.length + 1 := List.length_append
  unfold within
  by_cases hshort : line.length ≤ MAX_LINE_BYTES
  · rw [if_pos hshort]
    by_cases hfits : (line ++ [c]).length > MAX_LINE_BYTES
    · rw [if_neg (by omega)]
      simp [take, hc, hlength ▸ hfits]
    · rw [if_pos (by omega)]
      simp [take, hc]
      omega
  · rw [if_neg hshort, if_neg (by omega)]
    simp [take, hc]

/-- The newline gives the line's output and leaves a fresh redactor. -/
theorem take_newline (line : Bytes) : (within line).take 10 = (lineOutput line, {}) := by
  unfold within lineOutput
  split <;> simp [take]

theorem consume_append (redactor : DiagnosticLineRedactor) (first second : Bytes) :
    redactor.consume (first ++ second) =
      ((redactor.consume first).1 ++ ((redactor.consume first).2.consume second).1,
        ((redactor.consume first).2.consume second).2) := by
  induction first generalizing redactor with
  | nil => rfl
  | cons c first ih =>
      rw [List.cons_append, consume, consume, ih]
      simp only [List.append_assoc]

theorem consumeAll_eq_consume (redactor : DiagnosticLineRedactor) (chunks : List Bytes) :
    redactor.consumeAll chunks = redactor.consume chunks.flatten := by
  induction chunks generalizing redactor with
  | nil => rfl
  | cons chunk chunks ih => rw [consumeAll, List.flatten_cons, consume_append, ih]

theorem consume_unfinished (line : Bytes) {more : Bytes} (h : 10 ∉ more) :
    (within line).consume more = ([], within (line ++ more)) := by
  induction more generalizing line with
  | nil => simp [consume]
  | cons c more ih =>
      rw [List.mem_cons, not_or] at h
      rw [consume, take_within line (Ne.symm h.1), ih _ h.2]
      simp

theorem consume_lines {lines : List Bytes} (h : ∀ line ∈ lines, 10 ∉ line) :
    consume {} (joinLines lines) = (lines.flatMap lineOutput, {}) := by
  induction lines with
  | nil => rfl
  | cons line lines ih =>
      rw [List.forall_mem_cons] at h
      have hline : consume {} (line ++ [10]) = (lineOutput line, {}) := by
        have hopen := consume_unfinished [] h.1
        rw [within_nil] at hopen
        rw [consume_append, hopen]
        simp [consume, take_newline]
      have hcons : joinLines (line :: lines) = line ++ [10] ++ joinLines lines := rfl
      rw [hcons, consume_append, hline, ih h.2]
      rfl

/-- The redactor behind a stream: it has output its complete lines, and stands
within the unfinished one. -/
theorem consume_stream (stream : Bytes) :
    consume {} stream = ((splitLines stream).1.flatMap lineOutput, within (splitLines stream).2) := by
  obtain ⟨hstream, hlines, htail⟩ := splitLines_spec stream
  have hopen := consume_unfinished [] htail
  rw [within_nil] at hopen
  rw [hstream, splitLines_join hlines, splitLines_tail htail, consume_append, consume_lines hlines,
    hopen]
  simp

/-- For every way of cutting a stream the output is that of its complete lines;
between calls the pending text is bounded, and `finish` leaves a fresh redactor. -/
theorem consumeAll_lines (chunks : List Bytes) :
    (consumeAll {} chunks).1 = (splitLines chunks.flatten).1.flatMap lineOutput ∧
      (consumeAll {} chunks).2.pending.length ≤ MAX_LINE_BYTES ∧
      (consumeAll {} chunks).2.finish = {} := by
  rw [consumeAll_eq_consume, consume_stream]
  exact ⟨rfl, within_bounded _, rfl⟩

end OpenCam.Linux.DiagnosticLineRedactor
