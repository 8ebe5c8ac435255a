import Mathlib.Data.List.Basic

/-! Fields at fixed places of a buffer: what a write changes and what it leaves. -/
namespace AgentPassport.ByteFields
variable {α : Type*}

/-- `buf.set(items, offset)`. -/
def writeAt (buf : List α) (offset : Nat) (items : List α) : List α :=
  buf.take offset ++ items ++ buf.drop (offset + items.length)

/-- `buf.subarray(offset, offset + length)`. -/
def field (offset length : Nat) (buf : List α) : List α := (buf.drop offset).take length

variable {buf items : List α} {offset : Nat}

theorem writeAt_length (h : offset + items.length ≤ buf.length) : (writeAt buf offset items).length = buf.length := by
  rw [writeAt, List.length_append, List.length_append, List.length_take, List.length_drop]
  omega

theorem getElem?_writeAt (h : offset + items.length ≤ buf.length) (i : Nat) :
    (writeAt buf offset items)[i]? =
      if offset ≤ i ∧ i < offset + items.length then items[i - offset]? else buf[i]? := by
  have htake : (buf.take offset).length = offset := by
    rw [List.length_take]
    omega
  rw [writeAt, List.append_assoc]
  by_cases hbefore : i < offset
  · rw [List.getElem?_append_left (by omega), List.getElem?_take_of_lt hbefore, if_neg (by omega)]
  · rw [List.getElem?_append_right (by omega), htake]
    by_cases hin : i < offset + items.length
    · rw [List.getElem?_append_left (by omega), if_pos (by omega)]
    · rw [List.getElem?_append_right (by omega), List.getElem?_drop, if_neg (by omega)]
      congr 1
      omega

theorem getElem?_field (o n : Nat) (i : Nat) : (field o n buf)[i]? = if i < n then buf[o + i]? else none := by
  rw [field, List.getElem?_take, List.getElem?_drop]

theorem field_writeAt_of_disjoint {o n : Nat} (h : offset + items.length ≤ buf.length)
    (hdisjoint : o + n ≤ offset ∨ offset + items.length ≤ o) :
    field o n (writeAt buf offset items) = field o n buf := by
  apply List.ext_getElem?
  intro i
  rw [getElem?_field, getElem?_field, getElem?_writeAt h]
  by_cases hi : i < n
  · rw [if_pos hi, if_pos hi, if_neg (by omega)]
  · rw [if_neg hi, if_neg hi]

theorem field_writeAt_self {n : Nat} (hfits : items.length ≤ n) (h : offset + n ≤ buf.length) :
    field offset n (writeAt buf offset items) = items ++ field (offset + items.length) (n - items.length) buf := by
  apply List.ext_getElem?
  intro i
  rw [getElem?_field, getElem?_writeAt (by omega)]
  by_cases hin : i < items.length
  · rw [if_pos (by omega), if_pos (by omega), List.getElem?_append_left hin]
    congr 1
    omega
  · rw [List.getElem?_append_right (by omega), getElem?_field]
    by_cases hi : i < n
    · rw [if_pos hi, if_neg (by omega), if_pos (by omega)]
      congr 1
      omega
    · rw [if_neg hi, if_neg (by omega)]

theorem field_replicate {o n m : Nat} (a : α) (h : o + n ≤ m) : field o n (List.replicate m a) = List.replicate n a := by
  rw [field, List.drop_replicate, List.take_replicate]
  congr 1
  omega

theorem field_append {o n : Nat} (h : o + n ≤ buf.length) (rest : List α) : field o n (buf ++ rest) = field o n buf := by
  rw [field, field, List.drop_append_of_le_length (by omega), List.take_append_of_le_length (by
    rw [List.length_drop]; omega)]

end AgentPassport.ByteFields
