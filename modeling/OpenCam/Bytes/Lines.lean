import OpenCam.Bytes.BigEndian

/-!
The lines of a byte stream: those that a newline ends, and what stands behind
the last newline.
-/

namespace Octets

/-- The complete lines, without their newlines, and the unfinished line. -/
def splitLines : Bytes → List Bytes × Bytes
  | [] => ([], [])
  | c :: rest =>
      if c = 10 then ([] :: (splitLines rest).1, (splitLines rest).2)
      else
        match splitLines rest with
        | ([], tail) => ([], c :: tail)
        | (line :: lines, tail) => ((c :: line) :: lines, tail)

/-- The bytes of complete lines. -/
def joinLines (lines : List Bytes) : Bytes := lines.flatMap fun line => line ++ [10]

theorem splitLines_tail {tail : Bytes} (h : 10 ∉ tail) : splitLines tail = ([], tail) := by
  induction tail with
  | nil => rfl
  | cons c tail ih =>
      rw [List.mem_cons, not_or] at h
      rw [splitLines, if_neg (Ne.symm h.1), ih h.2]

theorem splitLines_line {line : Bytes} (h : 10 ∉ line) (rest : Bytes) :
    splitLines (line ++ 10 :: rest) = (line :: (splitLines rest).1, (splitLines rest).2) := by
  induction line with
  | nil => rfl
  | cons c line ih =>
      rw [List.mem_cons, not_or] at h
      rw [List.cons_append, splitLines, if_neg (Ne.symm h.1), ih h.2]

theorem splitLines_join {lines : List Bytes} (h : ∀ line ∈ lines, 10 ∉ line) (rest : Bytes) :
    splitLines (joinLines lines ++ rest) = (lines ++ (splitLines rest).1, (splitLines rest).2) := by
  induction lines with
  | nil => rfl
  | cons line lines ih =>
      rw [List.forall_mem_cons] at h
      have hcons : joinLines (line :: lines) ++ rest = line ++ 10 :: (joinLines lines ++ rest) := by
        simp [joinLines]
      rw [hcons, splitLines_line h.1, ih h.2]
      rfl

/-- A stream is its complete lines and its unfinished line. -/
theorem splitLines_spec (stream : Bytes) :
    stream = joinLines (splitLines stream).1 ++ (splitLines stream).2 ∧
      (∀ line ∈ (splitLines stream).1, 10 ∉ line) ∧ 10 ∉ (splitLines stream).2 := by
  induction stream with
  | nil => exact ⟨rfl, by simp [splitLines], by simp [splitLines]⟩
  | cons c rest ih =>
      obtain ⟨hrest, hlines, htail⟩ := ih
      rw [splitLines]
      split
      · next hc =>
          refine ⟨?_, ?_, htail⟩
          · rw [hc]
            exact congrArg (10 :: ·) hrest
          · rw [List.forall_mem_cons]
            exact ⟨List.not_mem_nil, hlines⟩
      · next hc =>
          split
          · next tail hsplit =>
              rw [hsplit] at hrest htail
              refine ⟨congrArg (c :: ·) hrest, by simp, ?_⟩
              rw [List.mem_cons, not_or]
              exact ⟨Ne.symm hc, htail⟩
          · next line lines tail hsplit =>
              rw [hsplit] at hrest hlines htail
              rw [List.forall_mem_cons] at hlines
              refine ⟨congrArg (c :: ·) hrest, ?_, htail⟩
              rw [List.forall_mem_cons, List.mem_cons, not_or]
              exact ⟨⟨Ne.symm hc, hlines.1⟩, hlines.2⟩

end Octets
