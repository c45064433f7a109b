import TagTemplate.Sink

/-!
Writing to sinks.

Whatever a sink can hold, writing appends to its bytes, and a text is written as its parts are.
-/

namespace TagTemplate

/-! ## Bytes -/

theorem extract_append_of_size_le {data next : ByteArray} {room : Nat} (h : data.size ≤ room) :
    (data ++ next).extract 0 room = data ++ next.extract 0 (room - data.size) := by
  have hdata : data.extract 0 room = data := by
    rw [← Nat.max_eq_left h, ByteArray.extract_zero_max_size]
  rw [ByteArray.extract_append, hdata, Nat.zero_sub]

theorem extract_append_of_lt_size {data : ByteArray} {room : Nat} (h : room < data.size)
    (next : ByteArray) : (data ++ next).extract 0 room = data.extract 0 room := by
  have hnext : next.extract (0 - data.size) (room - data.size) = .empty := by
    rw [ByteArray.extract_eq_empty_iff]
    omega
  rw [ByteArray.extract_append, hnext, ByteArray.append_empty]

/-! ## Sinks -/

/-- A text is written as its parts are; a part that does not fit is the last one written. -/
theorem Sink.write_append (sink : Sink) (text next : String) :
    sink.write (text ++ next) =
      match sink.write text with
      | (.ok (), after) => after.write next
      | (.error e, after) => (.error e, after) := by
  have hbytes : (text ++ next).toUTF8 = text.toUTF8 ++ next.toUTF8 := String.toByteArray_append
  obtain ⟨capacity, bytes⟩ := sink
  cases capacity with
  | none => simp only [write, hbytes, ByteArray.append_assoc]
  | some capacity =>
      simp only [write, hbytes]
      generalize text.toUTF8 = data
      generalize next.toUTF8 = more
      by_cases hdata : data.size ≤ capacity - bytes.size
      · have hiff : (data ++ more).size ≤ capacity - bytes.size ↔
            more.size ≤ capacity - (bytes ++ data).size := by
          simp only [ByteArray.size_append]
          omega
        simp only [if_pos hdata, hiff, extract_append_of_size_le hdata]
        split
        · rw [ByteArray.append_assoc]
        · rw [ByteArray.append_assoc, ByteArray.size_append, Nat.sub_add_eq]
      · have hboth : ¬(data ++ more).size ≤ capacity - bytes.size := by
          simp only [ByteArray.size_append]
          omega
        simp only [if_neg hdata, if_neg hboth, extract_append_of_lt_size (Nat.lt_of_not_le hdata)]

theorem Sink.exists_bytes_write (sink : Sink) (text : String) :
    ∃ rest, (sink.write text).2.bytes = sink.bytes ++ rest := by
  obtain ⟨capacity, bytes⟩ := sink
  cases capacity with
  | none => exact ⟨text.toUTF8, rfl⟩
  | some capacity =>
      simp only [write]
      split
      · exact ⟨text.toUTF8, rfl⟩
      · exact ⟨text.toUTF8.extract 0 (capacity - bytes.size), rfl⟩

end TagTemplate
