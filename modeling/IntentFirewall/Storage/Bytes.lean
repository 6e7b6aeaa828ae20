/-!
# The bytes of a file

* `overwrite` writes bytes at a place of a file, which grows as needed; a gap is filled with zeros.
* `resize` cuts a file or extends it with zeros.
-/

namespace IntentFirewall.Bytes

/-- A file with exactly `size` bytes: the first ones of `file`, and zeros behind them. -/
def resize (size : Nat) (file : List UInt8) : List UInt8 :=
  file.take size ++ List.replicate (size - file.length) 0

/-- A file with `bytes` written from the place `start` on. -/
def overwrite (start : Nat) (bytes file : List UInt8) : List UInt8 :=
  resize start file ++ bytes ++ file.drop (start + bytes.length)

/-- A file that has been resized has its new size. -/
theorem length_resize (size : Nat) (file : List UInt8) : (resize size file).length = size := by
  simp only [resize, List.length_append, List.length_take, List.length_replicate]
  omega

/-- A file that is long enough is cut. -/
theorem resize_of_le {size : Nat} {file : List UInt8} (h : size ≤ file.length) :
    resize size file = file.take size := by
  rw [resize, Nat.sub_eq_zero_of_le h, List.replicate_zero, List.append_nil]

/-- Without bytes a file that is long enough stays as it is. -/
theorem overwrite_nil_of_le {start : Nat} {file : List UInt8} (h : start ≤ file.length) :
    overwrite start [] file = file := by
  rw [overwrite, resize_of_le h, List.append_nil, List.length_nil, Nat.add_zero,
    List.take_append_drop]

/-- Even without bytes a file reaches to the place that is written at. -/
theorem le_length_overwrite (start : Nat) (bytes file : List UInt8) :
    start ≤ (overwrite start bytes file).length := by
  rw [overwrite, List.length_append, List.length_append, length_resize]
  omega

end IntentFirewall.Bytes
