import DisplayPipeline.Ring.Pool

namespace DisplayPipeline

namespace Pool

private theorem toList_loop (arena : ByteArray) (i : Nat) (done : List UInt8) :
    ByteArray.toList.loop arena i done = done.reverse ++ arena.data.toList.drop i := by
  fun_induction ByteArray.toList.loop arena i done with
  | case1 i done hi ih =>
    have hlt : i < arena.data.toList.length := hi
    rw [ih, List.drop_eq_getElem_cons hlt, List.reverse_cons, List.append_assoc]
    simp [ByteArray.get!, hi]
  | case2 i done hi =>
    have hle : arena.data.toList.length ≤ i := Nat.le_of_not_lt hi
    rw [List.drop_eq_nil_of_le hle, List.append_nil]

theorem toList_eq_data (arena : ByteArray) : arena.toList = arena.data.toList := by
  rw [ByteArray.toList, toList_loop, List.reverse_nil, List.nil_append, List.drop_zero]

variable {arena : ByteArray} {offset : Nat} {bytes : List UInt8}

private theorem data_put (arena : ByteArray) (offset : Nat) (bytes : List UInt8) :
    (bytes.toByteArray.copySlice 0 arena offset bytes.length).data.toList =
      arena.data.toList.take offset ++ bytes ++ arena.data.toList.drop (offset + bytes.length) := by
  have hsize : bytes.toByteArray.data.size = bytes.length := by
    rw [List.data_toByteArray, List.size_toArray]
  have hdata : (bytes.toByteArray.copySlice 0 arena offset bytes.length).data =
      arena.data.extract 0 offset ++ bytes.toByteArray.data.extract 0 (0 + bytes.length) ++
        arena.data.extract (offset + min bytes.length (bytes.toByteArray.data.size - 0))
          arena.data.size := rfl
  rw [hdata, hsize, Nat.zero_add, Nat.sub_zero, Nat.min_self]
  simp only [Array.toList_append, Array.toList_extract, List.extract_eq_take_drop,
    List.data_toByteArray, Nat.sub_zero, List.drop_zero, List.take_length]
  congr 1
  exact List.take_of_length_le (by simp)

theorem getElem?_put (h : offset + bytes.length ≤ arena.size) (k : Nat) :
    (bytes.toByteArray.copySlice 0 arena offset bytes.length).data.toList[k]? =
      if offset ≤ k ∧ k < offset + bytes.length then bytes[k - offset]?
      else arena.data.toList[k]? := by
  have hlen : (arena.data.toList.take offset).length = offset := by
    rw [List.length_take]
    exact Nat.min_eq_left (Nat.le_trans (Nat.le_add_right _ _) h)
  rw [data_put, List.append_assoc]
  rcases Nat.lt_or_ge k offset with hbefore | hfrom
  · rw [List.getElem?_append_left (by omega), List.getElem?_take_of_lt hbefore, if_neg (by omega)]
  · rw [List.getElem?_append_right (by omega), hlen]
    rcases Nat.lt_or_ge k (offset + bytes.length) with hin | hbehind
    · rw [List.getElem?_append_left (by omega), if_pos ⟨hfrom, hin⟩]
    · rw [List.getElem?_append_right (by omega), List.getElem?_drop, if_neg (by omega)]
      congr 1
      omega

theorem size_put (h : offset + bytes.length ≤ arena.size) :
    (bytes.toByteArray.copySlice 0 arena offset bytes.length).size = arena.size := by
  have hlen := congrArg List.length (data_put arena offset bytes)
  have hsize : arena.data.toList.length = arena.size := rfl
  simp only [List.length_append, List.length_take, List.length_drop, hsize] at hlen
  exact (show _ = _ from hlen).trans (by omega)

theorem getElem?_extract {length i : Nat} (hi : i < length) :
    (arena.extract offset (offset + length)).toList[i]? = arena.data.toList[offset + i]? := by
  rw [toList_eq_data, ByteArray.data_extract, Array.toList_extract, List.extract_eq_take_drop,
    Nat.add_sub_cancel_left, List.getElem?_take_of_lt hi, List.getElem?_drop]

theorem length_extract {length : Nat} (h : offset + length ≤ arena.size) :
    (arena.extract offset (offset + length)).toList.length = length := by
  have hsize : arena.data.toList.length = arena.size := rfl
  rw [toList_eq_data, ByteArray.data_extract, Array.toList_extract, List.extract_eq_take_drop,
    List.length_take, List.length_drop, hsize]
  omega

end Pool

end DisplayPipeline
